import ActorSystem.Drain

/-!
# Sweeps

A sweep visits the actors of the table, drains those that are idle, and erases those that
stopped. The deferred sweep works on a snapshot and erases all stopped actors at its end. The
handoff sweep walks the table itself as a reader, steps out of the lock around each batch, and
erases an actor as soon as it stops; actors registered meanwhile are visited too.
-/

namespace ActorSystem.Act

variable {σ : Signature}

def reportError (worker : Nat) (a : ActorRef) : Act σ Unit := do
  let p ← pool
  report (.actorReportedError worker (p.addressOf a) (p.nameOf a))

/-! ## The deferred sweep -/

/-- Drains these actors in order. The answer is the number of those that stopped. -/
def drainAll (company : Company σ) (worker : Nat) : List ActorRef → Act σ Nat
  | [] => return 0
  | a :: rest => do
    match ← process company a with
    | .poisoned => return (← drainAll company worker rest) + 1
    | .error =>
      reportError worker a
      drainAll company worker rest
    | .skipped | .complete => drainAll company worker rest

/-- Erases all stopped actors. The answer is the size of the table after that. -/
def removeSick : Act σ Nat := do
  lockTable .claim
  lockTable .awaitReaders
  atom .eraseSick
  let size ← atom .tableSize
  lockTable .leaveWrite
  return size

def snapshot : Act σ (List ActorRef) := do
  lockTable .enterRead
  let actors ← atom .snapshot
  lockTable .leaveRead
  return actors

def sweepDeferred (company : Company σ) (worker : Nat) : Act σ Unit := do
  let poisoned ← drainAll company worker (← snapshot)
  if poisoned ≠ 0 then
    let size ← removeSick
    report (.poisonedRemoved worker poisoned size)

/-! ## The handoff sweep -/

/-- Erases one actor, for a reader of the table who steps out of the lock for it. -/
def removeActor (worker : Nat) (a : ActorRef) : Act σ Unit := do
  lockTable .leaveRead
  lockTable .claim
  lockTable .awaitReaders
  atom (.erase a)
  report (.slotErased worker (← atom .tableSize))
  lockTable .leaveWrite
  lockTable .enterRead

/-- Visits the actor in this slot. The answer is the next slot to visit, `none` past the end of
the table. -/
def visitSlot (company : Company σ) (worker cursor : Nat) : Act σ (Option Nat) := do
  let some a ← atom (.slot cursor) | return none
  match ← processUnlocked company lockTable a with
  | .poisoned =>
    removeActor worker a
    return some cursor
  | .error =>
    reportError worker a
    return some (cursor + 1)
  | .skipped | .complete => return some (cursor + 1)

/-- Visits slots from `cursor` on, at most `fuel` of them. The answer is whether the end of the
table was reached. -/
def visitSlots (company : Company σ) (worker : Nat) : Nat → Nat → Act σ Bool
  | 0, _ => return false
  | fuel + 1, cursor => do
    match ← visitSlot company worker cursor with
    | none => return true
    | some cursor => visitSlots company worker fuel cursor

def walk (company : Company σ) (worker limit : Nat) : Act σ Unit := do
  lockTable .enterRead
  let _ ← visitSlots company worker limit 0
  lockTable .leaveRead

/-- More visits than a sweep that ends can make: every actor is visited once, and those that are
registered meanwhile have IDs of their own, of which there are `2 ^ 64`. -/
def visitLimit (p : Pool σ) : Nat := p.table.length + Nat.pow 2 64 + 1

def sweepHandoff (company : Company σ) (worker : Nat) : Act σ Unit := do
  walk company worker (visitLimit (← pool))

/-! ## Sweeping -/

/-- One sweep, by the strategy of the pool. The handoff sweep is cut off after `limit` visits. -/
def sweepWithin (company : Company σ) (worker limit : Nat) : Act σ Unit := do
  match (← pool).config.sweep with
  | .deferred => sweepDeferred company worker
  | .handoff => walk company worker limit

def sweep (company : Company σ) (worker : Nat) : Act σ Unit := do
  sweepWithin company worker (visitLimit (← pool))

/-- Sweeps while there is work, at most `limit` times. The answer is how often. -/
def settle (company : Company σ) (worker : Nat) : Nat → Act σ Nat
  | 0 => return 0
  | limit + 1 => do
    if (← pool).hasPendingWork then
      sweep company worker
      return (← settle company worker limit) + 1
    else return 0

end ActorSystem.Act
