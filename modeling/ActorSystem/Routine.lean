import ActorSystem.Sweep

/-!
# Routines

What a thread can be called to do: an outsider's business with the pool, a drain of one actor in
either form, or a sweep. An outsider asks the same things of the pool that a role can ask, and
may also put a letter straight into an actor's mailbox.
-/

namespace ActorSystem

inductive Routine (σ : Signature) where
  /-- Whatever an outsider asks of the pool. -/
  | serve (program : Program σ Unit)
  /-- A letter for an actor that does not go through the post office. -/
  | slip (a : ActorRef) (m : Message σ.Value)
  | drain (a : ActorRef)
  /-- A drain for a reader of the table, who steps out of the lock for its time. -/
  | drainUnlocked (a : ActorRef)
  /-- A sweep. The handoff sweep is cut off after `limit` visits. -/
  | sweep (worker limit : Nat)

namespace Routine

variable {σ : Signature}

/-- The act, and what comes back: a drain has an outcome. -/
def act (company : Company σ) : Routine σ → Act σ (Option Outcome)
  | serve program => do
    Act.interpret company program
    return none
  | slip a m => do
    if let some x := (← Act.pool).actor? a then Act.atom (.put x.box m)
    return none
  | drain a => return some (← Act.process company a)
  | drainUnlocked a => do
    Act.lockTable .enterRead
    let outcome ← Act.processUnlocked company Act.lockTable a
    Act.lockTable .leaveRead
    return some outcome
  | sweep worker limit => do
    Act.sweepWithin company worker limit
    return none

/-- One routine after another. -/
def all (company : Company σ) : List (Routine σ) → Act σ Unit
  | [] => return ()
  | r :: rest => do
    let _ ← r.act company
    all company rest

end Routine

end ActorSystem
