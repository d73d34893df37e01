import ActorSystem.Ensemble.Behaviour

/-!
# The outside of the ensemble

What happens when a role of the ensemble calls on the outside. Nested sweeps and drains take the
actors that are being drained for busy, so each level of nesting occupies one more actor; the
levels are counted down from a limit that no run reaches.
-/

namespace ActorSystem.Ensemble

abbrev Deed := Act signature

def modifyNotebook (f : Notebook → Notebook) : Deed Unit := Act.atom (.outside f)

def modifySideLock (op : LockState.Op) : Deed Unit :=
  modifyNotebook fun n => { n with sideLock := n.sideLock.after op }

/-- Makes the role that a casting asks for. The number of a task runner is not told. -/
def cast : Casting → Deed Part
  | .mock name key kind script fallback => do
    let (probe, notebook) := (← Act.atom .look).env.openProbe key
    modifyNotebook fun _ => notebook
    return .mock ⟨name, kind, script, fallback, probe⟩
  | .echo => return .echo
  | .counter start => return .counter ⟨start⟩
  | .player p => return .player p
  | .taskRunner name => return .taskRunner name ⟨"task-#"⟩
  | .scripted key name => return .scripted ⟨key, name⟩

def processSlot (company : Company signature) (slot : Nat) : Deed (Option Outcome) := do
  match (← Act.pool).table[slot]? with
  | none => return none
  | some a => return some (← Act.process company a)

/-- Answers a call, with so many levels of nesting left. -/
def outside : Nat → (c : Call) → Deed c.Reply
  | _, .note e => modifyNotebook (·.note e)
  | _, .cast c => cast c
  | _, .enterProbe k => modifyNotebook (·.modifyProbe k Probe.enter)
  | _, .observe k o => modifyNotebook (·.modifyProbe k (·.observe o))
  | 0, .sweep => return ()
  | levels + 1, .sweep => Act.sweep ⟨behaviour, outside levels⟩ 0
  | 0, .process _ => return none
  | levels + 1, .process slot => processSlot ⟨behaviour, outside levels⟩ slot
  | _, .len => return (← Act.pool).table.length
  | _, .pending => return (← Act.pool).hasPendingWork
  | _, .readers => return (← Act.pool).tableLock.readers
  | _, .revoke a => Act.revoke a
  | _, .contains a => return (← Act.pool).office.contains a
  | _, .table => return (← Act.pool).rows

/-- Every level occupies another actor, and there are not more than `2 ^ 64` IDs. -/
def nestingLimit : Nat := Nat.pow 2 64

def company : Company signature := ⟨behaviour, outside nestingLimit⟩

def register (c : Casting) : Deed (Except Error ActorId) := do
  let part ← cast c
  Act.register part.name part

def World.start (config : Config) : World signature := .empty config {}

end ActorSystem.Ensemble
