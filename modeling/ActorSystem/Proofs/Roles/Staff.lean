import ActorSystem.Ensemble.Company
import ActorSystem.Proofs.Crew.Stage

/-!
# The staff

The ensemble as a company of a crew. What its roles may ask of the outside is a word with the post
office or a note in the notebook; sweeps and drains are left to the threads.
-/

namespace ActorSystem.Ensemble

def staff : Company signature := ⟨behaviour, outside 0⟩

theorem staff_civil : staff.Civil := by
  intro call
  cases call with
  | cast c => cases c <;> first | trivial | exact ⟨rfl, fun _ => ⟨rfl, fun _ => trivial⟩⟩
  | sweep | process slot => trivial
  | revoke a =>
    refine ⟨rfl, fun (removed : Bool) => ?_⟩
    cases removed <;> first | trivial | exact ⟨rfl, fun _ => trivial⟩
  | _ => exact ⟨rfl, fun _ => trivial⟩

/-! ## What outsiders ask for -/

def hire (part : Part) : Routine signature := .serve (.ask (.register part) fun _ => .done ())

def send (target : Address) (m : Message Value) : Routine signature :=
  .serve (.ask (.post target m) fun _ => .done ())

/-- One thread does this alone: it begins and makes so many moves. -/
def turn (i : ThreadId) (r : Routine signature) (moves : Nat) : List (Move signature) :=
  .begin i r :: List.replicate moves (.go i)

end ActorSystem.Ensemble
