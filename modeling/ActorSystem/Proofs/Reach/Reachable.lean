import ActorSystem.Proofs.Mute
import ActorSystem.Proofs.Reach.Routines

/-!
# Who can be reached at its own ID

A healthy actor of the table that nobody asked to be unregistered ought to get what is posted to
the address of its ID. It does, unless another actor that stopped took this address with it:
`makeSick` revokes the address where the stopping mailbox believes it is, even if that address
was revoked before and has a new owner.

* `reaches_iff_not_evicted`: this is the only exception.
* `evicted_by_stopping`: it does occur.
-/

namespace ActorSystem

variable {σ : Signature}

/-- Whatever is posted to the address of `a`'s ID arrives, at the end of `a`'s mailbox and
nowhere else. -/
def World.Reaches (w : World σ) (a : ActorRef) : Prop :=
  ∃ id, w.pool.idOf a = some id ∧ ∀ m, ∃ w', (Act.post id.address m).run w = (.ok (), w') ∧
    (∀ c, w'.pool.mailOf c = w.pool.mailOf c ++ if c = a then [m] else []) ∧
    ∀ b, w.pool.boxOf a ≠ some b → w'.pool.office.box? b = w.pool.office.box? b

theorem Sound.empty (config : Config) (env : σ.Env) :
    Sound none [] (World.empty config env : World σ) where
  opened := rfl
  live c b hb := by cases hb
  home a b hb := by simp [Pool.boxOf, Pool.actor?, World.empty] at hb
  apart a c b hb := by simp [Pool.boxOf, Pool.actor?, World.empty] at hb
  named a b id hb := by simp [Pool.boxOf, Pool.actor?, World.empty] at hb
  attached a b id hb := by simp [Pool.boxOf, Pool.actor?, World.empty] at hb
  stopped a ha := by simp [Pool.boxOf, Pool.actor?, World.empty] at ha
  enlisted a ha := by cases ha
  grown v hv := by cases hv
  foreign v hv := by cases hv
  awake a ha := by cases ha

namespace Sound

variable {h : List (Visit σ)} {w : World σ} {a : ActorRef} {b : BoxRef} {id : ActorId}

theorem resolve_answer (hs : Sound none h w) (c : Address) :
    (Atom.resolve c).answer w = w.pool.office.boxAt c := by
  change (w.pool.office.resolve c).1 = _
  unfold Office.resolve
  cases hb : w.pool.office.boxAt c with
  | none => rfl
  | some b => simp [hs.live c b hb]

theorem post_run (hs : Sound none h w) (c : Address) (m : Message σ.Value) :
    (Act.post c m).run w = match w.pool.office.boxAt c with
      | some b => (.ok (), w.modifyOffice (·.put b m))
      | none => (.error (.addressNotFound c), w.report (.unknownAddress c)) := by
  simp only [Act.post, Act.run_bind, Act.run_atom, hs.resolve_answer, hs.resolve_eq]
  cases w.pool.office.boxAt c <;> rfl

theorem mailOf_modifyOffice {w : World σ} {c : ActorRef} {d : BoxRef}
    (hc : w.pool.boxOf c = some d) (f : Office σ.Value → Office σ.Value) :
    (w.modifyOffice f).pool.mailOf c = (f w.pool.office).mail d :=
  Pool.mailOf_eq_of_boxOf (p := (w.modifyOffice f).pool) hc

theorem mailOf_put (hs : Sound none h w) (hb : w.pool.boxOf a = some b) (m : Message σ.Value)
    (c : ActorRef) :
    (w.modifyOffice (·.put b m)).pool.mailOf c =
      w.pool.mailOf c ++ if c = a then [m] else [] := by
  have hbox := Office.box?_isSome_of_isOwned _ (hs.home a b hb)
  cases hc : w.pool.boxOf c with
  | none =>
    have hne : c ≠ a := by
      rintro rfl
      rw [hb] at hc
      cases hc
    rw [Pool.mailOf_eq_nil_of_boxOf hc, if_neg hne]
    exact Pool.mailOf_eq_nil_of_boxOf hc
  | some d =>
    have hiff : b = d ↔ c = a := by
      constructor
      · rintro rfl
        exact hs.apart c a b hc hb
      · rintro rfl
        exact Option.some.inj (hb.symm.trans hc)
    rw [mailOf_modifyOffice hc, Pool.mailOf_eq_of_boxOf hc, w.pool.office.mail_put hbox]
    simp only [hiff]

/-- A healthy actor is reached at its own ID exactly when its mailbox is registered there. -/
theorem reaches_iff (hs : Sound none h w) (hb : w.pool.boxOf a = some b)
    (hid : w.pool.idOf a = some id) :
    w.Reaches a ↔ w.pool.office.boxAt id.address = some b := by
  constructor
  · rintro ⟨i, hi, hpost⟩
    cases hid.symm.trans hi
    -- a letter that arrives in this mailbox shows which mailbox is registered
    obtain ⟨w', hrun, hmail, -⟩ := hpost .poison
    have ha := hmail a
    rw [if_pos rfl] at ha
    rw [hs.post_run] at hrun
    cases hd : w.pool.office.boxAt id.address with
    | none =>
      rw [hd] at hrun
      cases hrun
    | some d =>
      rw [hd] at hrun
      cases hrun
      by_cases hbd : d = b
      · rw [hbd]
      · have hbox := Office.box?_isSome_of_isOwned _ (hs.live _ d hd)
        rw [mailOf_modifyOffice hb, Pool.mailOf_eq_of_boxOf hb, w.pool.office.mail_put hbox,
          if_neg hbd] at ha
        simp at ha
  · intro hat
    refine ⟨id, hid, fun m => ⟨w.modifyOffice (·.put b m), ?_, hs.mailOf_put hb m, ?_⟩⟩
    · rw [hs.post_run, hat]
    · intro d hd
      refine (w.pool.office.box?_put b d m).trans (if_neg ?_)
      rintro rfl
      exact hd hb

end Sound

/-- After any routines, one after another and by either strategy, a healthy actor of the table
that nobody asked to be unregistered is reached at its own ID, unless another actor has stopped
and taken its address. -/
theorem reaches_iff_not_evicted (company : Company σ) (hc : company.Discreet) (config : Config)
    (env : σ.Env) (rs : List (Routine σ)) (w : World σ) (h : List (Visit σ))
    (hw : ((Routine.all company rs).run (.empty config env)).2 = w)
    (hh : (Routine.all company rs).visits (.empty config env) = h) (a : ActorRef)
    (ha : a ∈ w.pool.table) (hsick : w.pool.isSick a = false) (hd : ¬Dismissed h a) :
    w.Reaches a ↔ ¬Evicted h a := by
  have hs : Sound none h w := by
    have hall := Routine.all_sound hc rs [] _ (Sound.empty config env)
    rwa [hw, hh] at hall
  obtain ⟨b, hb⟩ := Option.isSome_iff_exists.mp (hs.enlisted a ha)
  have hid : w.pool.idOf a ≠ none := by
    intro hn
    have hp := hs.stopped a (by rw [hb]; rfl) hn
    rw [Pool.isSick_iff.mpr hp] at hsick
    cases hsick
  obtain ⟨id, hid⟩ := Option.ne_none_iff_exists'.mp hid
  rw [hs.reaches_iff hb hid, hs.attached a b id hb hid, hs.cutOff_iff, or_iff_right hd]

namespace Mute

/-- Two actors register, the second is asked to stop, the first is told to take the ID `id`, and
a sweep drains the first and then the second. -/
def succession (id : ActorId) : List (Routine signature) :=
  [register, register, unregister ⟨2⟩, post ⟨1⟩ (.setId id), .sweep 0 0]

end Mute

theorem succession_reaches_iff :
    0 ∈ (Mute.worldAfter (Mute.succession ⟨3⟩)).pool.table ∧
      ((Mute.worldAfter (Mute.succession ⟨3⟩)).Reaches 0 ↔
        ¬Evicted (Mute.visitsOf (Mute.succession ⟨3⟩)) 0) := by
  have ht : 0 ∈ (Mute.worldAfter (Mute.succession ⟨3⟩)).pool.table := by decide +kernel
  have hsick : (Mute.worldAfter (Mute.succession ⟨3⟩)).pool.isSick 0 = false := by decide +kernel
  have hd : ¬Dismissed (Mute.visitsOf (Mute.succession ⟨3⟩)) 0 := by
    unfold Dismissed
    decide +kernel
  exact ⟨ht, reaches_iff_not_evicted Mute.company nofun {} () (Mute.succession ⟨3⟩) _ _ rfl rfl 0
    ht hsick hd⟩

/-- The first actor has moved to the address that was taken from the second, and loses it when
the second stops. -/
theorem evicted_by_stopping :
    0 ∈ (Mute.worldAfter (Mute.succession ⟨2⟩)).pool.table ∧
      (Mute.worldAfter (Mute.succession ⟨2⟩)).pool.isSick 0 = false ∧
      ¬Dismissed (Mute.visitsOf (Mute.succession ⟨2⟩)) 0 ∧
      ¬(Mute.worldAfter (Mute.succession ⟨2⟩)).Reaches 0 := by
  refine ⟨by decide +kernel, by decide +kernel, ?_, ?_⟩
  · unfold Dismissed
    decide +kernel
  · rintro ⟨id, hid, hpost⟩
    have htwo : (Mute.worldAfter (Mute.succession ⟨2⟩)).pool.idOf 0 = some ⟨2⟩ := by decide +kernel
    cases htwo.symm.trans hid
    obtain ⟨w', hrun, -⟩ := hpost .poison
    have hlost : ((Act.post (σ := Mute.signature) (ActorId.address ⟨2⟩) .poison).run
        (Mute.worldAfter (Mute.succession ⟨2⟩))).1.isOk = false := by
      decide +kernel
    rw [hrun] at hlost
    cases hlost

end ActorSystem
