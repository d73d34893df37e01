/-!
# The state of a reader/writer lock

Any number of readers or one writer. A writer first claims the lock, which shuts out readers
that come later, and then waits for the readers inside to leave. The state is a flag for the
claim and a count of readers; threads that wait are the business of `Lock.Waiting`.
-/

namespace ActorSystem

/-- The word of state under the lock's own mutex. -/
structure LockState where
  /-- A writer has claimed the lock, and may still be waiting for readers to leave. -/
  hasWriter : Bool := false
  readers : Nat := 0
  deriving DecidableEq

namespace LockState

/-- The reader count is a machine word and never goes past its largest value. -/
def maxReaders : Nat := Nat.pow 2 64 - 1

def letsReadersIn (s : LockState) : Bool := !s.hasWriter && s.readers < maxReaders

def addReader (s : LockState) : LockState := { s with readers := s.readers + 1 }

def dropReader (s : LockState) : LockState := { s with readers := s.readers - 1 }

def claim (s : LockState) : LockState := { s with hasWriter := true }

def unclaim (s : LockState) : LockState := { s with hasWriter := false }

/-- The count is exact; what the lock protects is left out. -/
def inspect (s : LockState) : String :=
  "ReaderWriterLock \x7b has_writer: " ++ toString s.hasWriter ++ ", readers: " ++
    toString s.readers ++ ", .. \x7d"

/-! ## What a thread does to the lock -/

/-- The accesses that a thread makes on its way in and out. A writer makes two to come in. -/
inductive Op where
  | enterRead
  | leaveRead
  /-- Shut out readers that come later, and other writers. -/
  | claim
  /-- See the last reader leave. -/
  | awaitReaders
  | leaveWrite
  deriving DecidableEq

/-- Whether a thread can make this access now; it waits as long as it cannot. -/
def admits (s : LockState) : Op → Bool
  | .enterRead => s.letsReadersIn
  | .claim => !s.hasWriter
  | .awaitReaders => s.readers = 0
  | .leaveRead => true
  | .leaveWrite => true

def after (s : LockState) : Op → LockState
  | .enterRead => s.addReader
  | .leaveRead => s.dropReader
  | .claim => s.claim
  | .awaitReaders => s
  | .leaveWrite => s.unclaim

@[simp] theorem dropReader_addReader (s : LockState) : s.addReader.dropReader = s := rfl

theorem addReader_dropReader {s : LockState} (h : 0 < s.readers) : s.dropReader.addReader = s := by
  obtain ⟨w, r⟩ := s
  simp only [dropReader, addReader, LockState.mk.injEq, true_and]
  exact Nat.sub_add_cancel h

end LockState

end ActorSystem
