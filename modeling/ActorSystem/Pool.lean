import ActorSystem.Actor
import ActorSystem.Config.Basic
import ActorSystem.Lock.State

/-!
# The state of a pool

The actors registered so far, the table of those that are swept, their post office, and the
counter of IDs. Below are the questions that can be asked of a pool without changing it.
-/

namespace ActorSystem

structure Pool (σ : Signature) where
  config : Config
  office : Office σ.Value := {}
  /-- Every actor ever registered, in order of registration. -/
  actors : Array (Actor σ) := #[]
  /-- The actors that sweeps visit, in order. -/
  table : List ActorRef := []
  tableLock : LockState := {}
  nextId : UInt64 := 1

namespace Pool

variable {σ : Signature}

def actor? (p : Pool σ) (a : ActorRef) : Option (Actor σ) := p.actors[a]?

def modifyActor (p : Pool σ) (a : ActorRef) (f : Actor σ → Actor σ) : Pool σ :=
  { p with actors := p.actors.modify a f }

def isIdle (p : Pool σ) (a : ActorRef) : Bool := (p.actor? a).any (·.phase = .idle)

def isSick (p : Pool σ) (a : ActorRef) : Bool := (p.actor? a).any (·.isSick)

def idOf (p : Pool σ) (a : ActorRef) : Option ActorId := (p.actor? a).bind (·.id)

def nameOf (p : Pool σ) (a : ActorRef) : String := ((p.actor? a).map (·.name)).getD ""

/-- Where an actor's mailbox believes it is. -/
def addressOf (p : Pool σ) (a : ActorRef) : Address :=
  ((p.actor? a).map fun x => p.office.addressOf x.box).getD ⟨0⟩

/-- The letters an actor has not taken yet. -/
def mailOf (p : Pool σ) (a : ActorRef) : List (Message σ.Value) :=
  ((p.actor? a).map fun x => p.office.mail x.box).getD []

def contextOf (p : Pool σ) (a : ActorRef) : Context := ⟨p.idOf a, p.nameOf a, p.addressOf a⟩

def needsProcessing (p : Pool σ) (a : ActorRef) : Bool := p.isIdle a && !(p.mailOf a).isEmpty

def hasPendingWork (p : Pool σ) : Bool := p.table.any p.needsProcessing

/-- The ID of the first actor of the table that has this name and has not stopped. -/
def findByName (p : Pool σ) (name : String) : Option ActorId :=
  (p.table.find? fun a => !p.isSick a && p.nameOf a == name).bind p.idOf

/-- The name of the first actor of the table that has this ID. -/
def nameOfId (p : Pool σ) (id : ActorId) : Option String :=
  (p.table.find? fun a => p.idOf a == some id).map p.nameOf

def row (p : Pool σ) (a : ActorRef) : Row :=
  ⟨p.idOf a, p.nameOf a, p.addressOf a, p.isSick a, (p.mailOf a).length⟩

def rows (p : Pool σ) : List Row := p.table.map p.row

end Pool

end ActorSystem
