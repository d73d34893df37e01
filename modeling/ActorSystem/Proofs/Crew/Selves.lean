import ActorSystem.Proofs.Crew.Addresses
import ActorSystem.Proofs.Crew.Logbook

/-!
# What an actor is

An actor is what its role is, what it is called and which ID it has. All this is its own: in a crew
it changes with what is done for the actor and with nothing else (`Booked.owns_self`). So the role that
gets a message is the one that the message before has left, under the name and the ID that the
actor took last.
-/

namespace ActorSystem

variable {σ : Signature} {α β : Type} {company : Company σ} {config : Config} {c d : Crew σ}
variable {a : ActorRef} {w : World σ}

/-- The role, the name and the ID of an actor. -/
def Pool.selfOf (p : Pool σ) (a : ActorRef) : Option (σ.Role × String × Option ActorId) :=
  (p.actor? a).map fun x => (x.role, x.name, x.id)

namespace Atom

theorem selfOf_effect (x : Atom σ) (w : World σ) (c : ActorRef) :
    (x.effect w).pool.selfOf c =
      match x with
      | alter f => (f w).pool.selfOf c
      | setRole a role =>
        if a = c then (w.pool.selfOf c).map fun s => (role, s.2.1, s.2.2) else w.pool.selfOf c
      | setName a name =>
        if a = c then (w.pool.selfOf c).map fun s => (s.1, name, s.2.2) else w.pool.selfOf c
      | setId a id =>
        if a = c then (w.pool.selfOf c).map fun s => (s.1, s.2.1, some id) else w.pool.selfOf c
      | dropId a =>
        if a = c then (w.pool.selfOf c).map fun s => (s.1, s.2.1, none) else w.pool.selfOf c
      | enroll y =>
        if c = w.pool.actors.size then some (y.role, y.name, y.id) else w.pool.selfOf c
      | _ => w.pool.selfOf c := by
  simp only [Pool.selfOf, Pool.actor?, actors_effect]
  cases x with
  | claim a =>
    dsimp only
    split
    · exact part_modify_of_kept _ _ _ fun _ => rfl
    · rfl
  | finish a o =>
    dsimp only
    split
    · rfl
    · exact part_modify_of_kept _ _ _ fun _ => rfl
  | sicken => exact part_modify_of_kept _ _ _ fun _ => rfl
  | setRole | setName | setId | dropId =>
    simp only [Option.map_map]
    exact part_modify _ _ _ _ _
  | enroll y => exact part_push _ _ _ _
  | _ => rfl

section

variable {role : σ.Role} {name : String} {id : Option ActorId}
variable (h : w.pool.selfOf a = some (role, name, id))

include h

theorem selfOf_setRole (role' : σ.Role) :
    ((setRole a role').effect w).pool.selfOf a = some (role', name, id) := by
  simp [selfOf_effect, h]

theorem selfOf_setName (name' : String) :
    ((setName a name').effect w).pool.selfOf a = some (role, name', id) := by
  simp [selfOf_effect, h]

theorem selfOf_setId (id' : ActorId) :
    ((setId a id').effect w).pool.selfOf a = some (role, name, some id') := by
  simp [selfOf_effect, h]

end

/-- Nobody makes an access of this kind to what actor `a` is. -/
def selfless (a : ActorRef) : Atom σ → Bool
  | alter _ => false
  | setRole c _ | setName c _ | setId c _ | dropId c => c ≠ a
  | _ => true

theorem selfOf_of_selfless {x : Atom σ} (hx : x.selfless a) (ha : (w.pool.selfOf a).isSome) :
    (x.effect w).pool.selfOf a = w.pool.selfOf a := by
  rw [selfOf_effect]
  cases x with
  | alter f => cases hx
  | setRole | setName | setId | dropId => exact if_neg (of_decide_eq_true hx)
  | enroll y =>
    refine if_neg ?_
    have hlt : a < w.pool.actors.size := by
      simpa [Pool.selfOf, Pool.actor?] using ha
    exact Nat.ne_of_lt hlt
  | _ => rfl

theorem selfless_of_asked {x : Atom σ} (hx : x.asked) : x.selfless a := by
  cases x <;> first | rfl | cases hx

theorem selfless_of_tends {x : Atom σ} {b : ActorRef} (hx : x.tends b) (hab : a ≠ b) :
    x.selfless a := by
  cases x with
  | setRole c | setName c | setId c | dropId c =>
    have hcb : c = b := of_decide_eq_true hx
    exact decide_eq_true fun hca => hab (hca.symm.trans hcb)
  | _ => first | rfl | cases hx

theorem selfless_of_aside {x : Atom σ} {drains : Bool} (hx : x.aside drains) : x.selfless a := by
  cases drains with
  | false => exact selfless_of_asked hx
  | true =>
    rcases hx with hx | ⟨b, rfl⟩
    · cases x <;> first | rfl | cases hx
    · rfl

end Atom

namespace Booked

variable {ms : List (Move σ)}

theorem owns_self (hc : company.Civil) (h : Booked config company c)
    (ha : (c.world.pool.selfOf a).isSome) : c.Owns company a (·.pool.selfOf a) ms := by
  intro k m d d' hm hd hstep
  have hbooked := h.play hc hd
  obtain ⟨x, hx⟩ : ∃ x, c.world.pool.actor? a = some x :=
    Option.isSome_iff_exists.mp (by simpa [Pool.selfOf] using ha)
  have hbox : d.world.pool.boxOf a = some x.box :=
    h.sane.boxOf_play hc (by rw [Pool.boxOf, hx]; rfl) hd
  have hd : (d.world.pool.selfOf a).isSome := by
    rw [Pool.selfOf, Option.isSome_map, ← Option.isSome_map (f := (·.box)), ← Pool.boxOf, hbox]
    rfl
  cases hbooked.recorded hstep with
  | still i t before after stage world past => exact .inl (by rw [world])
  | made i j x move job allows stage world past entry =>
    have hleft : x.selfless a → d'.world.pool.selfOf a = d.world.pool.selfOf a := by
      intro hx
      rw [world]
      exact Atom.selfOf_of_selfless hx hd
    generalize d'.logbook company = l' at entry
    cases entry with
    | aside free allowed idle => exact .inl (hleft (Atom.selfless_of_aside allowed))
    | opens free front => exact .inl (hleft rfl)
    | @goes b _ next midst =>
      by_cases hab : a = b
      · refine .inr ⟨i, move, ?_⟩
        rw [Crew.midst, midst, hab]
        rfl
      · refine .inl (hleft ?_)
        rcases hbooked.logged.kind hc midst with hx | hx
        · exact Atom.selfless_of_asked hx
        · exact Atom.selfless_of_tends hx hab

end Booked

end ActorSystem
