import ActorSystem.Office
import ActorSystem.Program

/-!
# Actors

An actor couples a role with a mailbox and an identity. It is idle, or some worker is draining
its mailbox, or it has stopped for good; only an idle actor can be taken for a drain.
-/

namespace ActorSystem

/-- The identity of an actor in the pool, which outlives its ID. -/
abbrev ActorRef := Nat

inductive Phase where
  | idle
  | processing
  | sick
  deriving DecidableEq

structure Actor (σ : Signature) where
  /-- `none` once the actor has stopped. -/
  id : Option ActorId
  name : String
  phase : Phase := .idle
  box : BoxRef
  role : σ.Role

namespace Actor

variable {σ : Signature}

def isSick (a : Actor σ) : Bool := a.phase = .sick

/-- Stopped: no ID any more, and no way back. -/
def stopped (a : Actor σ) : Actor σ := { a with phase := .sick, id := none }

/-- After a drain that did not stop it, an actor can be drained again. -/
def released (a : Actor σ) : Actor σ := { a with phase := .idle }

end Actor

/-- One line of the actor table, as an onlooker sees it. -/
structure Row where
  id : Option ActorId
  name : String
  address : Address
  sick : Bool
  pending : Nat
  deriving DecidableEq

def Row.inspect (r : Row) : String :=
  "Actor \x7b id: " ++ inspectOption ActorId.inspect r.id ++ ", name: " ++ Text.quote r.name ++
    ", sick: " ++ toString r.sick ++ ", pending: " ++ toString r.pending ++ " \x7d"

end ActorSystem
