import ActorSystem.Ensemble.Basic

/-!
# How the ensemble behaves

What each role of the ensemble does with a message.

* A mock records the message and gives its next scripted outcome.
* A task runner runs tasks and fails on anything else.
* A scripted role performs the actions of a script one by one and journals what each came to; it
  fails on anything else.
-/

namespace ActorSystem.Ensemble

abbrev Doing := Program signature

def note (e : Entry) : Doing Unit := Program.call (σ := signature) (.note e)

/-! ## Mocks -/

namespace Mock

def next (m : Mock) : Outcome × Mock :=
  match m.script with
  | [] => (m.fallback, m)
  | o :: rest => (o, { m with script := rest })

def handle (m : Mock) (ctx : Context) (msg : Message Value) : Doing (Mock × Outcome) := do
  Program.call (σ := signature) (.enterProbe m.probe)
  Program.call (σ := signature)
    (.observe m.probe ⟨ctx.id, ctx.name, msg.source, valueOfKind? m.kind msg⟩)
  let (o, m) := m.next
  return (m, o)

end Mock

/-! ## Task runners -/

namespace Task

def run (t : Task) : Doing Verdict := do
  note (.task t.label)
  return t.verdict

end Task

namespace TaskRunner

def nonTask (a : Address) (name : String) : Event :=
  ⟨.warn, Event.roleOrigin, "TaskRunner got a non-task message",
    [("actor", a.text), ("name", name)]⟩

def handle (r : TaskRunner) (ctx : Context) (msg : Message Value) : Doing Verdict :=
  match msg.get? Task with
  | some t => t.run
  | none => do
    Program.log (nonTask ctx.address r.name)
    return .returned .error

end TaskRunner

/-! ## Scripted roles -/

def Target.resolve (ctx : Context) : Target → Address
  | .self => ctx.address
  | .address a => a

def Whom.resolve (ctx : Context) : Whom → ActorId
  | .self => ⟨ctx.address.raw⟩
  | .id i => i

def Finding.ofResult : Except Error Unit → Finding
  | .ok () => .done
  | .error e => .failed e

def Finding.ofRegistration : Except Error ActorId → Finding
  | .ok i => .id (some i)
  | .error e => .failed e

/-- Performs one action while `msg` is being handled. The two that end a script do nothing. -/
def Action.perform (ctx : Context) (msg : Message Value) : Action → Doing Finding
  | .who => return .who ctx
  | .source => return .source msg.source
  | .post target m => return .ofResult (← ctx.post (σ := signature) (target.resolve ctx) m)
  | .postNamed name m => return .ofResult (← ctx.postNamed (σ := signature) name m)
  | .reply m => return .ofResult (← ctx.reply (σ := signature) msg m)
  | .register c => do
    let part ← Program.call (σ := signature) (.cast c)
    return .ofRegistration (← ctx.register (σ := signature) part)
  | .unregister whom => return .ofResult (← ctx.unregister (whom.resolve ctx))
  | .find name => return .id (← ctx.findByName name)
  | .sweep => do
    Program.call (σ := signature) .sweep
    return .done
  | .process slot => do
    match ← Program.call (σ := signature) (.process slot) with
    | some o => return .outcome o
    | none => return .nothing
  | .len => return .count (← Program.call (σ := signature) .len)
  | .pending => return .flag (← Program.call (σ := signature) .pending)
  | .readers => return .count (← Program.call (σ := signature) .readers)
  | .revoke target => return .flag (← Program.call (σ := signature) (.revoke (target.resolve ctx)))
  | .contains target =>
    return .flag (← Program.call (σ := signature) (.contains (target.resolve ctx)))
  | .table => return .rows (← Program.call (σ := signature) .table)
  | .ret _ => return .done
  | .panic _ => return .done

namespace Scripted

def performAll (key : String) (ctx : Context) (msg : Message Value) :
    List Action → Doing Verdict
  | [] => return .returned .complete
  | .ret o :: _ => return .returned o
  | .panic p :: _ => return .panicked p
  | a :: rest => do
    let finding ← a.perform ctx msg
    note (.acted key a.name finding)
    performAll key ctx msg rest

def handle (s : Scripted) (ctx : Context) (msg : Message Value) : Doing Verdict :=
  match msg.get? Script with
  | some script => performAll s.key ctx msg script.actions
  | none => do
    note (.foreign s.key msg.source)
    return .returned .error

end Scripted

/-! ## All roles -/

namespace Part

def handle (part : Part) (ctx : Context) (msg : Message Value) : Doing (Ending signature) :=
  match part with
  | mock m => do
    let (m, o) ← m.handle ctx msg
    return ⟨mock m, .returned o⟩
  | echo => return ⟨part, .returned (← Echo.handle (σ := signature) ctx msg)⟩
  | counter c => do
    let (c, o) ← c.handle (σ := signature) ctx msg
    return ⟨counter c, .returned o⟩
  | player p => return ⟨part, .returned (← p.handle (σ := signature) ctx msg)⟩
  | taskRunner _ r => return ⟨part, ← r.handle ctx msg⟩
  | scripted s => return ⟨part, ← s.handle ctx msg⟩

end Part

def behaviour : Behaviour signature where
  nameOf := Part.name
  handle := Part.handle

end ActorSystem.Ensemble
