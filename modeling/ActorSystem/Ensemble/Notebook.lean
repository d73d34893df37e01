import ActorSystem.Actor
import ActorSystem.Lock.State
import ActorSystem.Ensemble.Value

/-!
# Notebook

What lies outside of a pool of the ensemble: a journal of what tasks and scripted roles did, the
probes that watch mock roles, and a lock that has nothing to do with the pool. A probe outlives
its role; of several probes under one key the last one counts.

* `values_observe`: a probe's values grow by the value observed, if there is one.
-/

namespace ActorSystem.Ensemble

/-- One message as a mock role saw it. -/
structure Observed where
  actor : Option ActorId
  name : String
  source : Option Address
  /-- The value, if it is of the kind that the mock records. -/
  value : Option Value

structure Probe where
  /-- In the order of handling. -/
  observed : List Observed := []
  inFlight : Nat := 0
  maxInFlight : Nat := 0

namespace Probe

def enter (p : Probe) : Probe :=
  { p with inFlight := p.inFlight + 1, maxInFlight := max p.maxInFlight (p.inFlight + 1) }

def observe (p : Probe) (o : Observed) : Probe :=
  { p with observed := p.observed ++ [o], inFlight := p.inFlight - 1 }

def values (p : Probe) : List Value := p.observed.filterMap (·.value)

def count (p : Probe) : Nat := p.observed.length

def verify (p : Probe) (count : Nat) : Bool := p.count == count

def hasSeen (p : Probe) (count : Nat) : Bool := count ≤ p.count

theorem values_observe (p : Probe) (o : Observed) :
    (p.observe o).values = p.values ++ o.value.toList := by
  simp only [values, observe, List.filterMap_append]
  cases h : o.value <;> simp [h]

end Probe

inductive Finding where
  | done
  | failed (e : Error)
  | id (id : Option ActorId)
  | flag (b : Bool)
  | count (n : Nat)
  | outcome (o : Outcome)
  /-- There was no such slot. -/
  | nothing
  | who (ctx : Context)
  | source (a : Option Address)
  | rows (rs : List Row)

/-- An entry of the journal. Scripted roles sign with their key. -/
inductive Entry where
  | task (label : String)
  /-- A message that was no script, from this sender. -/
  | foreign (key : String) (source : Option Address)
  | acted (key : String) (action : String) (finding : Finding)

structure Notebook where
  journal : Array Entry := #[]
  probes : Array Probe := #[]
  /-- Which probe was last made under a key, newest first. -/
  probeKeys : List (String × Nat) := []
  /-- A lock other than the table's, for callers who drain an actor from inside of one. -/
  sideLock : LockState := {}

namespace Notebook

def note (n : Notebook) (e : Entry) : Notebook := { n with journal := n.journal.push e }

def openProbe (n : Notebook) (key : String) : Nat × Notebook :=
  (n.probes.size,
    { n with probes := n.probes.push {}, probeKeys := (key, n.probes.size) :: n.probeKeys })

def modifyProbe (n : Notebook) (k : Nat) (f : Probe → Probe) : Notebook :=
  { n with probes := n.probes.modify k f }

def probe? (n : Notebook) (key : String) : Option Probe :=
  (n.probeKeys.lookup key).bind fun k => n.probes[k]?

/-- The journal so far, and the notebook with an empty one. -/
def takeJournal (n : Notebook) : List Entry × Notebook :=
  (n.journal.toList, { n with journal := #[] })

end Notebook

end ActorSystem.Ensemble
