import ActorSystem.Lock.Waiting

/-!
# A lock under named threads

A list of numbers behind one reader/writer lock, and threads that are told by name what to do.
Each thread holds a stack of guards. A command that has to wait leaves its thread blocked, with
the rest of the command as its `Errand`; after each command every thread that was woken runs on
until it is done or sleeps again.
-/

namespace ActorSystem.Bench

inductive LockCommand where
  | acquire (access : Access)
  | release
  | get
  /-- Append to the value through an innermost write guard. -/
  | push (v : Int)
  /-- Step out of an innermost read guard, append as a writer, and step back in. -/
  | unlockedPush (v : Int)
  /-- Step out of an innermost read guard, panic, and step back in. -/
  | unlockedPanic
  deriving DecidableEq

inductive LockReply where
  /-- The thread was blocked and did not take the command. -/
  | busy
  | blocked
  | value (v : List Int)
  | noValue
  | released
  | nothingHeld
  | noWriteGuard
  | noReadGuard
  /-- What the writer saw, and the value after stepping back in. -/
  | pushed (length : Nat) (v : List Int)
  | panicked (v : List Int)

/-- What is left to do once a blocked thread has the access it waits for. -/
inductive Errand where
  | hold (access : Access)
  /-- Append `v`, leave as a writer and come back as a reader. -/
  | append (v : Int)
  /-- Back inside as a reader, after the writer saw this length. -/
  | backFromPush (length : Nat)
  | backFromPanic
  deriving DecidableEq

/-- One thread: its guards, innermost first, and what it is blocked on. -/
structure Party where
  held : List Access := []
  errand : Option Errand := none

structure LockSession where
  lock : Lock String := {}
  value : List Int := []
  /-- In the order in which the threads were first named. -/
  parties : List (String × Party) := []

namespace LockSession

def party (s : LockSession) (name : String) : Party := (s.parties.lookup name).getD {}

/-- Sets the state of one thread, adding it at the end if it is new. -/
def setParty (s : LockSession) (name : String) (p : Party) : LockSession :=
  if s.parties.any (·.1 == name) then
    { s with parties := s.parties.map fun e => if e.1 == name then (name, p) else e }
  else { s with parties := s.parties ++ [(name, p)] }

/-- The thread has what it waited for and does the rest; or, in the middle of it, waits again. -/
def carryOn (s : LockSession) (name : String) : Errand → LockReply × LockSession
  | .hold access =>
    let p := s.party name
    (.value s.value, s.setParty name ⟨access :: p.held, none⟩)
  | .append v =>
    let value := s.value ++ [v]
    let (entered, lock) := (s.lock.leave .write).enter name .read
    let s := { s with lock, value }
    let p := s.party name
    if entered then (.pushed value.length value, s.setParty name { p with errand := none })
    else (.blocked, s.setParty name { p with errand := some (.backFromPush value.length) })
  | .backFromPush n =>
    (.pushed n s.value, s.setParty name { s.party name with errand := none })
  | .backFromPanic =>
    (.panicked s.value, s.setParty name { s.party name with errand := none })

def await (s : LockSession) (name : String) (access : Access) (errand : Errand) :
    LockReply × LockSession :=
  let (entered, lock) := s.lock.enter name access
  let s := { s with lock }
  if entered then s.carryOn name errand
  else (.blocked, s.setParty name { s.party name with errand := some errand })

def runWoken (s : LockSession) : Option LockSession :=
  match s.lock.nextWoken with
  | none => none
  | some sleeper =>
    let (entered, lock) := s.lock.resume sleeper
    let s := { s with lock }
    match entered, (s.party sleeper.thread).errand with
    | true, some errand => some (s.carryOn sleeper.thread errand).2
    | _, _ => some s

def settleWithin : Nat → LockSession → LockSession
  | 0, s => s
  | fuel + 1, s =>
    match s.runWoken with
    | none => s
    | some s => settleWithin fuel s

/-- Runs woken threads until all are done or asleep. A thread is woken at most once for every
time one of the others ends a stay in the lock. -/
def settle (s : LockSession) : LockSession :=
  let threads := s.parties.length + 1
  settleWithin (4 * threads * threads) s

def release (s : LockSession) (name : String) : LockReply × LockSession :=
  let p := s.party name
  match p.held with
  | [] => (.nothingHeld, s)
  | access :: held =>
    (.released, { s with lock := s.lock.leave access }.setParty name { p with held })

def obey (s : LockSession) (name : String) : LockCommand → LockReply × LockSession
  | .acquire access => s.await name access (.hold access)
  | .release => s.release name
  | .get => (if (s.party name).held.isEmpty then .noValue else .value s.value, s)
  | .push v =>
    match (s.party name).held with
    | .write :: _ =>
      let value := s.value ++ [v]
      (.value value, { s with value })
    | _ => (.noWriteGuard, s)
  | .unlockedPush v =>
    match (s.party name).held with
    | .read :: _ => { s with lock := s.lock.leaveRead }.await name .write (.append v)
    | _ => (.noReadGuard, s)
  | .unlockedPanic =>
    match (s.party name).held with
    | .read :: _ => { s with lock := s.lock.leaveRead }.await name .read .backFromPanic
    | _ => (.noReadGuard, s)

/-- Sends a command to a thread and waits until all threads are done or asleep. -/
def step (s : LockSession) (name : String) (c : LockCommand) : LockReply × LockSession :=
  let s := s.setParty name (s.party name)
  if (s.party name).errand.isSome then (.busy, s)
  else
    let (reply, s) := s.obey name c
    (reply, s.settle)

/-- Every thread that is not blocked drops its guards, one after the other. -/
def letGoOnce (s : LockSession) : LockSession :=
  s.parties.foldl (fun s (name, _) =>
    if (s.party name).errand.isSome then s
    else ((s.party name).held.foldl (fun s _ => (s.release name).2) s).settle) s

/-- All threads let go, the blocked ones once they are admitted. -/
def letGo (s : LockSession) : LockSession :=
  (List.range (3 * s.parties.length + 1)).foldl (fun s _ => s.letGoOnce) s

end LockSession

end ActorSystem.Bench
