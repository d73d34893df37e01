import ActorSystem.Error
import ActorSystem.Outcome

/-!
# Settings of a pool

Every setting has a default. The number of workers has none that is a number: left open, it is
one less than the processors of the machine, and at least one.

* `validate_eq_ok_iff`: a valid pool has workers and room for actors.
-/

namespace ActorSystem

inductive SweepStrategy where
  /-- Over a snapshot; poisoned actors are erased together at the end. -/
  | deferred
  /-- Over the table itself, letting go of it around each batch; each poisoned actor is erased
  on the spot. -/
  | handoff
  deriving DecidableEq, Inhabited

namespace SweepStrategy

def name : SweepStrategy → String
  | deferred => "deferred"
  | handoff => "handoff"

def inspect : SweepStrategy → String
  | deferred => "Deferred"
  | handoff => "Handoff"

end SweepStrategy

structure Config where
  /-- The number of workers; `none` leaves it to the machine. -/
  workers : Option Nat := none
  maxActors : Nat := 4096
  /-- Whether worker `n` is to run on processor `n`. -/
  pinThreads : Bool := true
  /-- Worker threads are named by this text and their number. -/
  threadPrefix : String := "worker"
  sweep : SweepStrategy := .deferred
  batchPolicy : BatchPolicy := .lastNonComplete
  deriving DecidableEq

namespace Config

/-- The number of workers on a machine with so many processors. -/
def workerCount (c : Config) (processors : Nat) : Nat := c.workers.getD (max (processors - 1) 1)

/-- Refuses a pool without workers and one without room, in this order. -/
def validate (c : Config) : Except Error Unit :=
  if c.workers = some 0 then .error (.config "workers must be at least 1")
  else if c.maxActors = 0 then .error (.config "max_actors must be at least 1")
  else .ok ()

theorem validate_eq_ok_iff (c : Config) :
    c.validate = .ok () ↔ c.workers ≠ some 0 ∧ 0 < c.maxActors := by
  unfold validate
  split
  · simp_all
  · split
    · simp_all
    · simp_all; omega

theorem workerCount_pos {c : Config} (h : c.validate = .ok ()) (processors : Nat) :
    0 < c.workerCount processors := by
  obtain ⟨hworkers, -⟩ := c.validate_eq_ok_iff.mp h
  unfold workerCount
  cases hcount : c.workers with
  | none => exact Nat.lt_of_lt_of_le Nat.zero_lt_one (Nat.le_max_right ..)
  | some n =>
    refine Nat.pos_of_ne_zero fun hn => hworkers ?_
    rw [hcount]
    exact congrArg some hn

theorem validate_default : ({} : Config).validate = .ok () := rfl

end Config

end ActorSystem
