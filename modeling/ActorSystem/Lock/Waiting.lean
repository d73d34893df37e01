import ActorSystem.Lock.State

/-!
# Waiting for a reader/writer lock

The lock together with the threads that sleep at it. Readers and writers that find a writer
sleep at the *gate*; the writer with the claim sleeps at the *drain* until the last reader is
out. Each operation below is one critical section under the lock's mutex, so runs of many
threads are the interleavings of these operations:

* `enter` claims or takes the lock, or puts the thread to sleep;
* `leaveRead` releases a reader and wakes whoever that concerns;
* `leaveWrite` gives up the claim, and `openGate` then wakes everyone at the gate, in a
  separate step;
* `resume` lets a woken thread test its condition again. It may have to sleep once more.
-/

namespace ActorSystem

inductive Access where
  | read
  | write
  deriving DecidableEq

def Access.name : Access → String
  | read => "read"
  | write => "write"

/-- Where a thread sleeps, and for what. -/
inductive Bed where
  | gate (access : Access)
  | drain
  deriving DecidableEq

def Bed.isGate : Bed → Bool
  | gate _ => true
  | drain => false

/-- A thread asleep at the lock, or woken and not yet running. -/
structure Sleeper (τ : Type) where
  thread : τ
  bed : Bed
  woken : Bool

/-- The lock, with its sleepers in the order in which they fell asleep. -/
structure Lock (τ : Type) where
  state : LockState := {}
  sleepers : List (Sleeper τ) := []

namespace Lock

variable {τ : Type}

def sleep (l : Lock τ) (thread : τ) (bed : Bed) : Lock τ :=
  { l with sleepers := l.sleepers ++ [⟨thread, bed, false⟩] }

/-- The writer with the claim enters once no reader is inside. The flag says whether it did. -/
def enterClaimed (l : Lock τ) (thread : τ) : Bool × Lock τ :=
  if l.state.readers = 0 then (true, l) else (false, l.sleep thread .drain)

/-- Asks for access. The flag says whether it was granted at once. -/
def enter (l : Lock τ) (thread : τ) : Access → Bool × Lock τ
  | .read =>
    if l.state.letsReadersIn then (true, { l with state := l.state.addReader })
    else (false, l.sleep thread (.gate .read))
  | .write =>
    if l.state.hasWriter then (false, l.sleep thread (.gate .write))
    else { l with state := l.state.claim }.enterClaimed thread

def wakeFirst (p : Bed → Bool) : List (Sleeper τ) → List (Sleeper τ)
  | [] => []
  | s :: rest =>
    if p s.bed && !s.woken then { s with woken := true } :: rest else s :: wakeFirst p rest

def wakeAll (p : Bed → Bool) (ss : List (Sleeper τ)) : List (Sleeper τ) :=
  ss.map fun s => if p s.bed then { s with woken := true } else s

/-- A reader leaves. Under a claim the last one wakes the writer at the drain; without a claim,
the first to leave a full house wakes one sleeper at the gate. -/
def leaveRead (l : Lock τ) : Lock τ :=
  let state := l.state.dropReader
  let sleepers :=
    if state.hasWriter then
      if state.readers = 0 then wakeFirst (· == .drain) l.sleepers else l.sleepers
    else if state.readers = LockState.maxReaders - 1 then wakeFirst Bed.isGate l.sleepers
    else l.sleepers
  ⟨state, sleepers⟩

def leaveWrite (l : Lock τ) : Lock τ := { l with state := l.state.unclaim }

def openGate (l : Lock τ) : Lock τ := { l with sleepers := wakeAll Bed.isGate l.sleepers }

def leave (l : Lock τ) : Access → Lock τ
  | .read => l.leaveRead
  | .write => l.leaveWrite.openGate

def nextWoken (l : Lock τ) : Option (Sleeper τ) := l.sleepers.find? (·.woken)

/-- Takes one sleeper of this thread off the list. -/
def rise [DecidableEq τ] (l : Lock τ) (thread : τ) : Lock τ :=
  { l with sleepers := l.sleepers.eraseP (·.thread = thread) }

/-- A woken thread is up and asks again for what it was waiting for. -/
def resume [DecidableEq τ] (l : Lock τ) (s : Sleeper τ) : Bool × Lock τ :=
  match s.bed with
  | .gate access => (l.rise s.thread).enter s.thread access
  | .drain => (l.rise s.thread).enterClaimed s.thread

@[simp] theorem length_wakeFirst (p : Bed → Bool) (ss : List (Sleeper τ)) :
    (wakeFirst p ss).length = ss.length := by
  induction ss with
  | nil => rfl
  | cons s rest ih => simp only [wakeFirst]; split <;> simp [ih]

@[simp] theorem length_wakeAll (p : Bed → Bool) (ss : List (Sleeper τ)) :
    (wakeAll p ss).length = ss.length := by simp [wakeAll]

end Lock

end ActorSystem
