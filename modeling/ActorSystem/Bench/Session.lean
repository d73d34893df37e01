import ActorSystem.Ensemble.Company

/-!
# A bench for post offices and pools

Worlds of the ensemble under the names of their handles, and mailboxes in named slots. A handle
is a way to reach a world's post office; several may lead to the same one. An office is closed
when its last handle goes; the mailboxes stay in their slots.

An office asked for by a name that is no handle is a new and empty one, closed right after.
-/

namespace ActorSystem.Bench

open Ensemble

structure Session where
  worlds : Array (World signature) := #[]
  /-- Which world a handle leads to. -/
  handles : List (String × Nat) := []
  /-- Where a mailbox is: the world and the mailbox in it. -/
  slots : List (String × Nat × BoxRef) := []

namespace Session

/-- The name of the handle that is there from the start. -/
def mainHandle : String := "main"

/-- One world, reached by the main handle. -/
def start (config : Config) : Session :=
  { worlds := #[World.start config], handles := [(mainHandle, 0)] }

def world? (s : Session) (handle : String) : Option (World signature) :=
  (s.handles.lookup handle).bind fun i => s.worlds[i]?

def actOn {α : Type} (i : Nat) (absent : α) (act : Deed α) (s : Session) : α × Session :=
  match s.worlds[i]? with
  | none => (absent, s)
  | some w =>
    let (a, w) := act.run w
    (a, { s with worlds := s.worlds.set! i w })

def addWorld (s : Session) : Nat × Session :=
  (s.worlds.size, { s with worlds := s.worlds.push (World.start {}) })

/-- Closes the office of world `i` if no handle leads there. -/
def closeUnreached (s : Session) (i : Nat) : Session :=
  if s.handles.any (·.2 == i) then s
  else (s.actOn i () (Act.modifyOffice Office.close)).2

/-! ## Handles -/

/-- Makes `handle` lead to world `i`, and no longer to where it led. -/
def setHandle (s : Session) (handle : String) (i : Nat) : Session :=
  let previous := s.handles.lookup handle
  let s := { s with handles := (handle, i) :: s.handles.filter (·.1 ≠ handle) }
  match previous with
  | none => s
  | some j => s.closeUnreached j

def newOffice (s : Session) (handle : String) : Session :=
  let (i, s) := s.addWorld
  s.setHandle handle i

def cloneOffice (s : Session) (handle copy : String) : Session :=
  match s.handles.lookup handle with
  | some i => s.setHandle copy i
  | none => s.newOffice copy

/-- Gives up a handle. The flag says whether there was one. -/
def dropOffice (s : Session) (handle : String) : Bool × Session :=
  match s.handles.lookup handle with
  | none => (false, s)
  | some i =>
    (true, { s with handles := s.handles.filter (·.1 ≠ handle) }.closeUnreached i)

/-- The number of addresses registered at a handle's office. -/
def officeSize (s : Session) (handle : String) : Option Nat :=
  (s.world? handle).map (·.pool.office.size)

/-- Acts on the office of a handle. The act learns which world it is in. -/
def atOffice {α : Type} (handle : String) (absent : α) (act : Nat → Deed α) (s : Session) :
    α × Session :=
  match s.handles.lookup handle with
  | some i => s.actOn i absent (act i)
  | none =>
    let (i, s) := s.addWorld
    let (a, s) := s.actOn i absent (act i)
    (a, s.closeUnreached i)

/-! ## Slots -/

/-- The owner of the mailbox in a slot drops it. The flag says whether there was one. -/
def dropMailbox (s : Session) (slot : String) : Bool × Session :=
  match s.slots.lookup slot with
  | none => (false, s)
  | some (i, b) =>
    let s := { s with slots := s.slots.filter (·.1 ≠ slot) }
    (true, (s.actOn i () (Act.modifyOffice (·.discard b))).2)

/-- Makes a mailbox and puts it into a slot; what was in the slot is dropped after that. -/
def makeMailbox (s : Session) (handle slot : String) (a : Address) :
    Except Error Address × Session :=
  let (made, s) := s.atOffice handle (.error (.addressNotFound a), 0) fun i => do
    return (← Act.createMailbox a, i)
  match made with
  | (.error e, _) => (.error e, s)
  | (.ok b, i) =>
    let s := (s.dropMailbox slot).2
    (.ok a, { s with slots := (slot, i, b) :: s.slots })

/-- Acts on the mailbox in a slot, if there is one. -/
def atSlot {α : Type} (slot : String) (act : BoxRef → Deed α) (s : Session) :
    Option α × Session :=
  match s.slots.lookup slot with
  | none => (none, s)
  | some (i, b) => s.actOn i none (some <$> act b)

/-! ## One mailbox -/

def put (b : BoxRef) (m : Message Value) : Deed Unit := Act.modifyOffice (·.put b m)

def poll (b : BoxRef) : Deed (Option (Message Value)) := do
  match (← Act.pool).office.poll b with
  | none => return none
  | some (m, office) =>
    Act.modifyOffice fun _ => office
    return some m

def takeAll (b : BoxRef) : Deed (List (Message Value)) := do
  let mail := (← Act.pool).office.mail b
  Act.modifyOffice (·.modifyBox b fun box => { box with queue := [] })
  return mail

def mailbox? (b : BoxRef) : Deed (Option (Mailbox Value)) := return (← Act.pool).office.box? b

/-! ## The actor table -/

/-- The row in this slot of the table and whether its actor needs processing. -/
def inspectSlot (slot : Nat) : Deed (Option (Row × Bool)) := do
  let p ← Act.pool
  return p.table[slot]?.map fun a => (p.row a, p.needsProcessing a)

/-- Puts a letter into the mailbox of the actor in this slot, past the post office. -/
def postToSlot (slot : Nat) (m : Message Value) : Deed Bool := do
  let p ← Act.pool
  match p.table[slot]?.bind p.actor? with
  | none => return false
  | some x =>
    put x.box m
    return true

/-- Drains the actor in this slot for a caller who is a reader of the side lock. The answer holds
the outcome, the readers of that lock after the drain, and those after the caller has left. -/
def processSlotUnlocked (slot : Nat) : Deed (Option (Outcome × Nat × Nat)) := do
  match (← Act.pool).table[slot]? with
  | none => return none
  | some a =>
    modifySideLock .enterRead
    let outcome ← Act.processUnlocked company modifySideLock a
    let inside := (← Act.atom .look).env.sideLock.readers
    modifySideLock .leaveRead
    return some (outcome, inside, (← Act.atom .look).env.sideLock.readers)

end Session

end ActorSystem.Bench
