import ActorSystem.Config.File
import ActorSystem.Demo.Cast
import ActorSystem.Event.Filter
import ActorSystem.Event.Line

/-!
# The demo

The demo starts a pool, with the settings of a file or the default ones, and plays three scenes
with a mailbox of its own as the counterpart: a text comes back from an echo, a counter sums up a
burst of commands from several senders, and two players finish a rally. Then it unregisters the
whole cast and stops the pool.

The pool sweeps whenever the demo waits for mail, until there is no work left. The first error
ends the demo; the pool is stopped all the same.
-/

namespace ActorSystem.Demo

abbrev Scene := ExceptT Error (Act signature)

/-! ## What the demo reports -/

def origin : String := "actor_sample"

def echoAnswered (text : String) : Event := ⟨.info, origin, "Echo answered", [("text", text)]⟩

def unexpectedReply (m : Message Value) : Event :=
  ⟨.error, origin, "Unexpected echo reply", [("other", m.inspect)]⟩

def senderFailed (e : Error) : Event :=
  ⟨.error, origin, "Sender failed", [("error", e.message)]⟩

def counterAnswered (total : Option Total) (expected : Nat) : Event :=
  ⟨.info, origin, "Counter answered",
    [("total", inspectOption Total.inspect total), ("expected", toString expected)]⟩

def gameOver (result : Option GameOver) : Event :=
  ⟨.info, origin, "Game over", [("result", inspectOption GameOver.inspect result)]⟩

def unexpectedMessage (m : Message Value) : Event :=
  ⟨.error, origin, "Unexpected message in main inbox", [("other", m.inspect)]⟩

def completed : Event := ⟨.info, origin, "Demo completed", []⟩

/-! ## Acting on the pool -/

def attempt {α : Type} (act : Act signature (Except Error α)) : Scene α := ExceptT.mk act

def report (e : Event) : Scene Unit := ExceptT.lift (Act.report e)

def register (part : Part) : Scene ActorId := attempt (Act.register part.name part)

def post (target : Address) (m : Message Value) : Scene Unit := attempt (Act.post target m)

/-- How many sweeps the pool makes at most while the demo waits. -/
def sweepLimit : Nat := 10000

/-- Lets the pool do its work and takes the oldest letter out of a mailbox. -/
def receive (inbox : BoxRef) : Act signature (Option (Message Value)) := do
  let _ ← Act.settle company 0 sweepLimit
  match (← Act.pool).office.poll inbox with
  | none => return none
  | some (m, office) =>
    Act.modifyOffice fun _ => office
    return some m

/-- Takes letters until one carries a `T`; a control message ends the wait. Other letters are
reported, at most `limit` of them. -/
def awaitReply (T : Type) [Carries Value T] (inbox : BoxRef) :
    Nat → Act signature (Option T)
  | 0 => return none
  | limit + 1 => do
    let some m ← receive inbox | return none
    match m.get? T with
    | some t => return some t
    | none =>
      if m.isControl then return none
      Act.report (unexpectedMessage m)
      awaitReply T inbox limit

/-- How many letters the demo takes at most to find the one it waits for. -/
def letterLimit : Nat := 100

/-! ## The scenes -/

def senders : Nat := 4

def addsPerSender : Nat := 250

def rally : UInt32 := 20

def echoScene (inbox : BoxRef) (home : Address) : Scene ActorId := do
  let echo ← register .echo
  post echo.address (Message.withSource (.of "hello") home)
  match ← ExceptT.lift (receive inbox) with
  | none => return echo
  | some m =>
    match m.get? String with
    | some text => report (echoAnswered text)
    | none => report (unexpectedReply m)
    return echo

/-- Posts a letter so many times, up to the first that does not arrive. -/
def postTimes (target : Address) (m : Message Value) : Nat → Act signature (Except Error Unit)
  | 0 => return .ok ()
  | count + 1 => do
    match ← Act.post target m with
    | .ok () => postTimes target m count
    | .error e => return .error e

def counterScene (inbox : BoxRef) (home : Address) : Scene ActorId := do
  let counter ← register (.counter {})
  for _ in List.range senders do
    let sent ← ExceptT.lift
      (postTimes counter.address (.of (CounterCommand.add 1)) addsPerSender)
    if let .error e := sent then report (senderFailed e)
  post counter.address (Message.withSource (.of CounterCommand.report) home)
  let total ← ExceptT.lift (awaitReply Total inbox letterLimit)
  report (counterAnswered total (senders * addsPerSender))
  return counter

def rallyScene (inbox : BoxRef) (home : Address) : Scene (ActorId × ActorId) := do
  let ping ← register (.player ⟨"ping", rally, home⟩)
  let pong ← register (.player ⟨"pong", rally, home⟩)
  post ping.address (Message.withSource (.of (⟨0⟩ : Ball)) pong.address)
  let result ← ExceptT.lift (awaitReply GameOver inbox letterLimit)
  report (gameOver result)
  return (ping, pong)

def allScenes : Scene Unit := do
  let home := Address.ofName "main"
  let inbox ← attempt (Act.createMailbox home)
  let echo ← echoScene inbox home
  let counter ← counterScene inbox home
  let (ping, pong) ← rallyScene inbox home
  for id in [echo, counter, ping, pong] do
    attempt (Act.unregister id)

/-! ## From start to end -/

/-- Reports that so many workers are up. -/
def startWorkers (workers : Nat) : Act signature Unit := do
  let c := (← Act.pool).config
  Act.report (.poolStarted workers c.maxActors c.sweep.inspect)
  for i in List.range workers do Act.report (.workerStarted i)

/-- Lets the workers finish what they have, and stops them. -/
def stopWorkers (workers : Nat) : Act signature Unit := do
  Act.report (.shuttingDown workers (← Act.pool).table.length)
  let _ ← Act.settle company 0 sweepLimit
  for i in List.range workers do Act.report (.workerStopped i)
  Act.report .poolStopped

def wholePlay (workers : Nat) : Act signature (Except Error Unit) := do
  startWorkers workers
  let ending ← allScenes.run
  stopWorkers workers
  if let .ok () := ending then Act.report completed
  return ending

/-- All that the demo reports, and the error that ended it. -/
structure Run where
  events : List Event
  error : Option Error

def runWith (config : Config) (processors : Nat) : Run :=
  match config.validate with
  | .error e => ⟨[], some e⟩
  | .ok () =>
    let workers := config.workerCount processors
    let (ending, w) := (wholePlay workers).run (.empty config ())
    ⟨w.log.toList, match ending with
      | .ok () => none
      | .error e => some e⟩

structure File where
  path : String
  contents : Except ReadFailure ByteArray

/-- The demo with the settings of a file, if there is one, on a machine with so many
processors. -/
def run (file : Option File) (processors : Nat) : Run :=
  match file with
  | none => runWith {} processors
  | some f =>
    match Config.ofFile f.path f.contents with
    | .error e => ⟨[], some e⟩
    | .ok config =>
      let loaded := Event.configLoaded f.path (config.workerCount processors)
      let r := runWith config processors
      { r with events := loaded :: r.events }

/-! ## What is shown of it -/

/-- What a command writes, line by line, and its exit code. -/
structure Output where
  exit : UInt32
  lines : List String
  complaints : List String

def Run.output (r : Run) (filter : String) : Output :=
  let (f, faults) := Filter.parse filter
  { exit := if r.error.isSome then 1 else 0
    lines := (r.events.filter f.shows).map Event.line
    complaints := faults.map (fun (written, fault) => Filter.complaint written fault) ++
      r.error.toList.map fun e => s!"Error: {e.inspect}" }

end ActorSystem.Demo
