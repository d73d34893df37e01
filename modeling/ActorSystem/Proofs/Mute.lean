import ActorSystem.Routine

/-!
# A company of mutes

The smallest company: roles that take every message and do nothing with it, and nothing outside
of the pool.
-/

namespace ActorSystem.Mute

def signature : Signature where
  Role := Unit
  Value := Unit
  Env := Unit
  Call := Empty
  Reply := nofun

def company : Company signature where
  behaviour := { nameOf := fun _ => "mute", handle := fun _ _ _ => .done ⟨(), .returned .complete⟩ }
  outside := nofun

/-! ## What outsiders ask for -/

def register : Routine signature := .serve (.ask (.register ()) fun _ => .done ())

def unregister (id : ActorId) : Routine signature := .serve (.ask (.unregister id) fun _ => .done ())

def post (target : Address) (c : Control) : Routine signature :=
  .serve (.ask (.post target (.ofControl c)) fun _ => .done ())

/-! ## What routines come to -/

/-- The world after these routines, one after another, in a pool with the default settings. -/
def worldAfter (rs : List (Routine signature)) : World signature :=
  ((Routine.all company rs).run (.empty {} ())).2

def visitsOf (rs : List (Routine signature)) : List (Visit signature) :=
  (Routine.all company rs).visits (.empty {} ())

end ActorSystem.Mute
