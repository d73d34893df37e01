import ActorSystem.Ensemble.Notebook
import ActorSystem.Sweep

/-!
# The ensemble

The roles of the ensemble, and the signature they make with its values and its notebook. Roles
may call on the outside to write into the notebook, and to have done what another thread could
do at that moment.
-/

namespace ActorSystem.Ensemble

/-! ## The roles -/

/-- Answers by a script of outcomes, then by one fallback, and shows its probe what it sees. -/
structure Mock where
  name : String
  kind : Kind
  script : List Outcome
  fallback : Outcome
  probe : Nat

structure TaskRunner where
  name : String
  deriving DecidableEq

/-- Runners are numbered, and named for their number. -/
def TaskRunner.ofNumber (n : Nat) : TaskRunner := ⟨s!"task-{n}"⟩

/-- Does what the scripts it gets tell it to do. -/
structure Scripted where
  key : String
  name : Option String

inductive Part where
  | mock (m : Mock)
  | echo
  | counter (c : Counter)
  | player (p : Player)
  /-- A runner under a name of its own for display. -/
  | taskRunner (name : String) (r : TaskRunner)
  | scripted (s : Scripted)

def unnamed : String := "???"

def Part.name : Part → String
  | mock m => m.name
  | echo => Echo.defaultName
  | counter _ => Counter.defaultName
  | player p => p.name
  | taskRunner name _ => name
  | scripted s => s.name.getD unnamed

/-! ## The signature -/

inductive Call where
  | note (e : Entry)
  /-- Make a role, with a probe if it is a mock. -/
  | cast (c : Casting)
  | enterProbe (probe : Nat)
  | observe (probe : Nat) (o : Observed)
  | sweep
  | process (slot : Nat)
  | len
  | pending
  | readers
  | revoke (a : Address)
  | contains (a : Address)
  | table

def Call.Reply : Call → Type
  | note _ => Unit
  | cast _ => Part
  | enterProbe _ => Unit
  | observe .. => Unit
  | sweep => Unit
  | process _ => Option Outcome
  | len => Nat
  | pending => Bool
  | readers => Nat
  | revoke _ => Bool
  | contains _ => Bool
  | table => List Row

@[reducible] def signature : Signature where
  Role := Part
  Value := Value
  Env := Notebook
  Call := Call
  Reply := Call.Reply

end ActorSystem.Ensemble
