import ActorSystem.Proofs.Identity.Agreement
import ActorSystem.Proofs.Reach.Reachable

/-!
# Whose ID it is

Two healthy actors of the table ought not to have the same ID. Nothing compares IDs: an actor may
take every ID whose address the registry has free, and the registry has an address free as soon as
it is revoked, which may be long before the actor that has this ID gives it up. This is the only
way in which an ID comes to have two holders.

* `attached_holder_unique`: of the holders of an ID, at most one has not been cut off.
* `id_names_one_actor`: if none has been cut off there is only one, and this is the one that the
  name of the ID and the letters to its address belong to.
* `two_holders`: an ID does come to have two holders.
-/

namespace ActorSystem

variable {σ : Signature}

/-- A healthy actor of the table that has this ID. -/
structure Pool.Holds (p : Pool σ) (a : ActorRef) (id : ActorId) : Prop where
  listed : a ∈ p.table
  well : p.isSick a = false
  idOf : p.idOf a = some id

namespace Sound

variable {h : List (Visit σ)} {w : World σ} {a c : ActorRef} {id : ActorId}

/-- A holder that is not cut off is registered at the address of its ID. -/
theorem boxAt_of_holds (hs : Sound none h w) (ha : w.pool.Holds a id) (hcut : ¬CutOff h a) :
    ∃ b, w.pool.boxOf a = some b ∧ w.pool.office.boxAt id.address = some b := by
  obtain ⟨b, hb⟩ := Option.isSome_iff_exists.mp (hs.enlisted a ha.listed)
  have hat := (hs.attached a b id hb ha.idOf).mpr hcut
  exact ⟨b, hb, hat⟩

theorem attached_holder_unique (hs : Sound none h w) (ha : w.pool.Holds a id)
    (hc : w.pool.Holds c id) (hcuta : ¬CutOff h a) (hcutc : ¬CutOff h c) : a = c := by
  obtain ⟨b, hb, hat⟩ := hs.boxAt_of_holds ha hcuta
  obtain ⟨d, hd, hdt⟩ := hs.boxAt_of_holds hc hcutc
  -- only one mailbox is registered there
  have hbd : b = d := Option.some.inj (hat.symm.trans hdt)
  rw [← hbd] at hd
  exact hs.apart a c b hb hd

end Sound

/-- Whoever has an ID has not stopped. -/
theorem Pool.InOrder.well_of_idOf {p : Pool σ} (h : p.InOrder none) {a : ActorRef} {id : ActorId}
    (hid : p.idOf a = some id) : p.isSick a = false := by
  rw [Bool.eq_false_iff]
  intro hsick
  obtain ⟨x, hx, -⟩ := Option.bind_eq_some_iff.mp hid
  have hbox : (p.boxOf a).isSome := by
    rw [boxOf, hx]
    rfl
  have hnone := (h.stopped a hbox).mpr hsick
  rw [hid] at hnone
  cases hnone

/-- An ID with one holder has this one's name. -/
theorem Pool.InOrder.nameOfId_eq {p : Pool σ} (h : p.InOrder none) {a : ActorRef} {id : ActorId}
    (ha : p.Holds a id) (hone : ∀ c, p.Holds c id → c = a) :
    p.nameOfId id = some (p.nameOf a) := by
  unfold nameOfId
  cases hfind : p.table.find? fun c => p.idOf c == some id with
  | none =>
    have hno := List.find?_eq_none.mp hfind a ha.listed
    exact absurd (beq_iff_eq.mpr ha.idOf) hno
  | some c =>
    have hfound := List.find?_some hfind
    have hid : p.idOf c = some id := beq_iff_eq.mp hfound
    have hc : p.Holds c id := ⟨List.mem_of_find?_eq_some hfind, h.well_of_idOf hid, hid⟩
    rw [hone c hc]
    rfl

/-- After any routines, one after another and by either strategy: if no healthy actor of the table
with this ID has been cut off from its address, then only one has the ID, the ID leads to its
name, and what is posted to the address of the ID arrives in its mailbox. -/
theorem id_names_one_actor (company : Company σ) (hc : company.Discreet) (config : Config)
    (env : σ.Env) (rs : List (Routine σ)) (w : World σ) (h : List (Visit σ))
    (hw : ((Routine.all company rs).run (.empty config env)).2 = w)
    (hh : (Routine.all company rs).visits (.empty config env) = h) (a : ActorRef) (id : ActorId)
    (ha : w.pool.Holds a id) (hkept : ∀ c, w.pool.Holds c id → ¬CutOff h c) :
    (∀ c, w.pool.Holds c id → c = a) ∧ w.pool.nameOfId id = some (w.pool.nameOf a) ∧
      w.Reaches a := by
  have hs : Sound none h w := by
    have hall := Routine.all_sound hc rs [] _ (Sound.empty config env)
    rwa [hw, hh] at hall
  have horder : w.pool.InOrder none := by
    have hall := (papers_upkeep hc.postal).all rs [] _ (Act.Papers.start config env)
    rw [hw] at hall
    exact hall.1
  have hone : ∀ c, w.pool.Holds c id → c = a :=
    fun c hc => hs.attached_holder_unique hc ha (hkept c hc) (hkept a ha)
  obtain ⟨b, hb, hat⟩ := hs.boxAt_of_holds ha (hkept a ha)
  exact ⟨hone, horder.nameOfId_eq ha hone, (hs.reaches_iff hb ha.idOf).mpr hat⟩

namespace Mute

/-- Two actors register, the second is asked to stop, and the first, which is told to take the ID
`id`, is drained before the second is. -/
def overtaking (id : ActorId) : List (Routine signature) :=
  [register, register, unregister ⟨2⟩, post ⟨1⟩ (.setId id), .drain 0]

end Mute

theorem overtaking_names_one_actor :
    (Mute.worldAfter (Mute.overtaking ⟨3⟩)).pool.nameOfId ⟨3⟩ =
        some ((Mute.worldAfter (Mute.overtaking ⟨3⟩)).pool.nameOf 0) ∧
      (Mute.worldAfter (Mute.overtaking ⟨3⟩)).Reaches 0 := by
  have ha : (Mute.worldAfter (Mute.overtaking ⟨3⟩)).pool.Holds 0 ⟨3⟩ :=
    ⟨by decide +kernel, by decide +kernel, by decide +kernel⟩
  have htable : (Mute.worldAfter (Mute.overtaking ⟨3⟩)).pool.table = [0, 1] := by decide +kernel
  have htwo : (Mute.worldAfter (Mute.overtaking ⟨3⟩)).pool.idOf 1 = some ⟨2⟩ := by decide +kernel
  -- the one address that is revoked is never the first actor's
  have hcalm : ∀ v ∈ Mute.visitsOf (Mute.overtaking ⟨3⟩), (v.world.pool.idOf 0).all fun i =>
      v.atom.revocation.all fun r => r.2 ≠ i.address := by
    decide +kernel
  have hkept : ∀ c, (Mute.worldAfter (Mute.overtaking ⟨3⟩)).pool.Holds c ⟨3⟩ →
      ¬CutOff (Mute.visitsOf (Mute.overtaking ⟨3⟩)) c := by
    intro c hc
    have hlisted := hc.listed
    have hid := hc.idOf
    rw [htable] at hlisted
    simp only [List.mem_cons, List.not_mem_nil, or_false] at hlisted
    rcases hlisted with rfl | rfl
    · rintro ⟨v, hv, r, ht⟩
      obtain ⟨i, hi, hr⟩ := Visit.takes_iff.mp ht
      have hown := hcalm v hv
      rw [hi, hr] at hown
      simp at hown
    · rw [htwo] at hid
      cases hid
  exact (id_names_one_actor Mute.company nofun {} () (Mute.overtaking ⟨3⟩) _ _ rfl rfl 0 ⟨3⟩ ha
    hkept).2

/-- The first actor has taken an ID that the second still has. -/
theorem two_holders :
    (Mute.worldAfter (Mute.overtaking ⟨2⟩)).pool.Holds 0 ⟨2⟩ ∧
      (Mute.worldAfter (Mute.overtaking ⟨2⟩)).pool.Holds 1 ⟨2⟩ :=
  ⟨⟨by decide +kernel, by decide +kernel, by decide +kernel⟩,
    ⟨by decide +kernel, by decide +kernel, by decide +kernel⟩⟩

end ActorSystem
