import ActorSystem.Text.Quoted
import ActorSystem.NameHash

/-!
# Addresses and actor IDs

A mailbox is known by a 64-bit address. The upper half of the address space belongs to names:
an address made from a name has its top bit set. An actor's mailbox lives at the address that
equals its ID, in the lower half as long as the IDs stay there.

* `isNamed_ofName`: every address made from a name is a named one.
* `ofName_ne_address`: no name reaches the address of an ID below `2 ^ 63`.
-/

namespace ActorSystem

structure ActorId where
  raw : UInt64
  deriving DecidableEq, Inhabited

structure Address where
  raw : UInt64
  deriving DecidableEq, Inhabited

/-- Where the mailbox of an actor with this ID lives. -/
def ActorId.address (id : ActorId) : Address := ⟨id.raw⟩

namespace Address

/-- The bit that marks an address made from a name. -/
def namedBit : UInt64 := 0x8000000000000000

def isNamed (a : Address) : Bool := a.raw &&& namedBit != 0

def ofName (name : String) : Address := ⟨NameHash.ofName name ||| namedBit⟩

/-- A hash sign and 16 digits for a named address, an at sign and the number for any other. -/
def text (a : Address) : String :=
  if a.isNamed then "#" ++ Text.paddedHex 16 a.raw.toNat else "@" ++ toString a.raw.toNat

instance : ToString Address := ⟨text⟩

def inspect (a : Address) : String := s!"Address({a.raw.toNat})"

private theorem or_and_absorb (x y : UInt64) : (x ||| y) &&& y = y := by
  apply UInt64.toBitVec_inj.1
  ext i hi
  simp only [UInt64.toBitVec_and, UInt64.toBitVec_or, BitVec.getElem_and, BitVec.getElem_or]
  cases x.toBitVec[i] <;> cases y.toBitVec[i] <;> rfl

theorem isNamed_ofName (name : String) : (ofName name).isNamed = true := by
  simp only [isNamed, ofName, bne_iff_ne, ne_eq]
  rw [or_and_absorb]
  decide

theorem ofName_ne_address {name : String} {id : ActorId} (h : id.address.isNamed = false) :
    ofName name ≠ id.address := by
  intro he
  rw [← he, isNamed_ofName] at h
  exact absurd h (by decide)

end Address

namespace ActorId

instance : ToString ActorId := ⟨fun id => toString id.raw.toNat⟩

def inspect (id : ActorId) : String := s!"ActorId({id.raw.toNat})"

end ActorId

/-- The structured form of a value that may be missing. -/
def inspectOption {α : Type} (inspect : α → String) : Option α → String
  | none => "None"
  | some a => s!"Some({inspect a})"

end ActorSystem
