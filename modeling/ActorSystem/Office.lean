import ActorSystem.Error
import ActorSystem.Message

/-!
# The post office

Mailboxes and the registry that finds them by address. A mailbox is a queue with an address of
its own; it goes on working when its address is taken from it, and can then only be reached by
its owner. The registry maps addresses to mailboxes and keeps none of them alive.

Each function on `Office` is one critical section under the registry's lock, or one under a
queue's lock, apart from the few that say so.

* `post_eq`: a letter to a registered mailbox goes to the end of its queue, any other comes
  back.
* `poll_put`: what is put into an empty mailbox is what comes out of it.
-/

namespace ActorSystem

/-- The identity of a mailbox, which outlives its address. -/
abbrev BoxRef := Nat

structure Mailbox (V : Type) where
  /-- Where the mailbox believes it is. -/
  address : Address
  queue : List (Message V) := []
  /-- Cleared when the owner drops the mailbox. -/
  owned : Bool := true

namespace Mailbox

variable {V : Type}

def put (b : Mailbox V) (m : Message V) : Mailbox V := { b with queue := b.queue ++ [m] }

/-- The oldest letter, and the mailbox without it. -/
def poll (b : Mailbox V) : Option (Message V × Mailbox V) :=
  match b.queue with
  | [] => none
  | m :: rest => some (m, { b with queue := rest })

def inspect (b : Mailbox V) : String :=
  "Mailbox \x7b address: " ++ b.address.inspect ++ ", len: " ++ toString b.queue.length ++ " \x7d"

theorem poll_put {b : Mailbox V} (h : b.queue = []) (m : Message V) :
    (b.put m).poll = some (m, b) := by
  obtain ⟨a, q, o⟩ := b
  subst h
  rfl

end Mailbox

/-- All mailboxes ever made here, and the registry. -/
structure Office (V : Type) where
  boxes : Array (Mailbox V) := #[]
  /-- Which mailbox is registered where. No address is listed twice. -/
  entries : List (Address × BoxRef) := []
  /-- Set when the last handle to the registry is gone; the mailboxes stay. -/
  closed : Bool := false

namespace Office

variable {V : Type}

/-! ## Lookups -/

def box? (o : Office V) (b : BoxRef) : Option (Mailbox V) := o.boxes[b]?

def isOwned (o : Office V) (b : BoxRef) : Bool := (o.box? b).any (·.owned)

/-- The entry at an address, whether or not its mailbox still has an owner. -/
def boxAt (o : Office V) (a : Address) : Option BoxRef := o.entries.lookup a

def find? (o : Office V) (a : Address) : Option BoxRef := (o.boxAt a).filter o.isOwned

def contains (o : Office V) (a : Address) : Bool := (o.find? a).isSome

def size (o : Office V) : Nat := o.entries.length

def addressOf (o : Office V) (b : BoxRef) : Address := ((o.box? b).map (·.address)).getD ⟨0⟩

/-- The letters waiting in a mailbox, oldest first. -/
def mail (o : Office V) (b : BoxRef) : List (Message V) := ((o.box? b).map (·.queue)).getD []

/-! ## Editing -/

def modifyBox (o : Office V) (b : BoxRef) (f : Mailbox V → Mailbox V) : Office V :=
  { o with boxes := o.boxes.modify b f }

def eraseEntry (o : Office V) (a : Address) : Office V :=
  { o with entries := o.entries.filter (·.1 ≠ a) }

/-- Registers `b` at `a` in place of whatever was there. -/
def setEntry (o : Office V) (a : Address) (b : BoxRef) : Office V :=
  { o with entries := o.entries.filter (·.1 ≠ a) ++ [(a, b)] }

/-- Finds the live mailbox at an address, clearing away an entry whose mailbox is gone. -/
def resolve (o : Office V) (a : Address) : Option BoxRef × Office V :=
  match o.boxAt a with
  | none => (none, o)
  | some b => if o.isOwned b then (some b, o) else (none, o.eraseEntry a)

/-! ## Mailboxes -/

/-- Makes a mailbox at an address that no live mailbox has. -/
def create (o : Office V) (a : Address) : Except Error (BoxRef × Office V) :=
  if o.contains a then .error (.addressInUse a)
  else .ok (o.boxes.size, { o with boxes := o.boxes.push { address := a } }.setEntry a o.boxes.size)

def put (o : Office V) (b : BoxRef) (m : Message V) : Office V := o.modifyBox b (·.put m)

def poll (o : Office V) (b : BoxRef) : Option (Message V × Office V) :=
  match o.mail b with
  | [] => none
  | m :: rest => some (m, o.modifyBox b fun box => { box with queue := rest })

/-- Moves a registered mailbox to another address in one step, its letters with it. -/
def rekey (o : Office V) (b : BoxRef) (source target : Address) : Except Error (Office V) :=
  if o.boxAt source ≠ some b then .error (.addressNotFound source)
  else if source = target then .ok o
  else if o.contains target then .error (.addressInUse target)
  else .ok ((o.eraseEntry source).setEntry target b)

/-- Moves a mailbox from where it believes it is to `target`. Two steps: the registry first, the
mailbox's own address after it. -/
def readdress (o : Office V) (b : BoxRef) (target : Address) : Except Error (Office V) :=
  let source := o.addressOf b
  if o.closed then .error (.addressNotFound source)
  else do
    let o ← o.rekey b source target
    return o.modifyBox b fun box => { box with address := target }

/-- The owner drops a mailbox: its letters are lost, and its entry goes with it if it still has
one. -/
def discard (o : Office V) (b : BoxRef) : Office V :=
  let a := o.addressOf b
  let o := o.modifyBox b fun box => { box with queue := [], owned := false }
  if !o.closed && o.boxAt a == some b then o.eraseEntry a else o

/-! ## Delivery -/

/-- Delivers a letter to the live mailbox at an address. Two steps: the registry first, the
queue after it. -/
def post (o : Office V) (a : Address) (m : Message V) : Except Error Unit × Office V :=
  match o.resolve a with
  | (some b, o) => (.ok (), o.put b m)
  | (none, o) => (.error (.addressNotFound a), o)

/-- Takes an address off the registry, whoever has it. The flag says whether anyone did. -/
def revoke (o : Office V) (a : Address) : Bool × Office V :=
  ((o.boxAt a).isSome, o.eraseEntry a)

/-- The last handle to the registry goes. -/
def close (o : Office V) : Office V := { o with entries := [], closed := true }

theorem post_eq (o : Office V) (a : Address) (m : Message V) :
    o.post a m = match o.find? a with
      | some b => (.ok (), o.put b m)
      | none => (.error (.addressNotFound a), (o.resolve a).2) := by
  unfold post resolve find?
  cases h : o.boxAt a with
  | none => rfl
  | some b => cases hb : o.isOwned b <;> simp [Option.filter, hb]

end Office

end ActorSystem
