import ActorSystem.Proofs.Crew.Table

/-!
# A company of couriers

Roles that pass a letter on, along the route that it carries, and that stop when a letter comes with
no route left.
-/

namespace ActorSystem.Courier

def signature : Signature where
  Role := Unit
  Value := List Address
  Env := Unit
  Call := Empty
  Reply := nofun

def handle (ctx : Context) (m : Message (List Address)) :
    Program signature (Ending signature) := do
  match m.value? with
  | some (next :: route) =>
    let _ ← ctx.post next (.ofValue route)
    return ⟨(), .returned .complete⟩
  | some [] => return ⟨(), .returned .poisoned⟩
  | none => return ⟨(), .returned .complete⟩

def company : Company signature where
  behaviour := { nameOf := fun _ => "courier", handle := fun _ => handle }
  outside := nofun

def register : Routine signature := .serve (.ask (.register ()) fun _ => .done ())

def send (target : Address) (route : List Address) : Routine signature :=
  .serve (.ask (.post target (.ofValue route)) fun _ => .done ())

/-- Three couriers register. The first has a letter that goes to the third and back, and the second
a letter that stops it. -/
def errands : List (Routine signature) :=
  [register, register, register, send ⟨1⟩ [⟨3⟩, ⟨1⟩], send ⟨2⟩ []]

theorem errands_drain_nothing : ∀ r ∈ errands, r.isDrain = false := by
  intro r hr
  simp only [errands, List.mem_cons, List.not_mem_nil, or_false] at hr
  rcases hr with rfl | rfl | rfl | rfl | rfl <;> rfl

def worldOf (config : Config) : World signature :=
  ((Routine.all company errands).run (.empty config ())).2

end ActorSystem.Courier
