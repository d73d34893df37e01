import ActorSystem.Proofs.Identity.Unique
import ActorSystem.Proofs.Sweep.Erasures

/-!
# Unregistering somebody who is no actor

To unregister an ID one must find its actor, and what is looked up is not the table but the address
that goes with the ID. As long as only actors live at addresses of this kind that is the same. But
anybody may have a mailbox at any address, and whoever has one where the ID leads gets the poison
message and loses the address.

* `enrolled_upkeep`: every actor that has an ID is in the table.
* `unregister_discerns_iff`: where this goes well.
* `squatter_is_dismissed`: where it does not.
-/

namespace ActorSystem

variable {σ : Signature} {company : Company σ} {α : Type} {who who' : Option ActorRef}

/-! ## Whoever has an ID is in the table -/

def Pool.Enrolled (p : Pool σ) : Prop := ∀ a, (p.idOf a).isSome → a ∈ p.table

/-- As long as the sweeps are fair to those they erase. -/
def Rolls (who : Option ActorRef) : Fact σ := fun h w =>
  Papers who h w ∧ ((∀ v ∈ h, v.Fair) → w.pool.Enrolled)

namespace Act

theorem rolls_append {h vs : List (Visit σ)} {w w' : World σ} (hr : Rolls who h w)
    (hp : Papers who' (h ++ vs) w') (hids : ∀ a, (w'.pool.idOf a).isSome → (w.pool.idOf a).isSome)
    (htable : w'.pool.table = w.pool.table) : Rolls who' (h ++ vs) w' := by
  refine ⟨hp, fun hfair a ha => ?_⟩
  rw [htable]
  exact hr.2 (fun v hv => hfair v (List.mem_append_left _ hv)) a (hids a ha)

theorem rolls_quiet {x : Atom σ} (hx : x.quiet) :
    Leads (Rolls who) (atom x) fun _ => Rolls who := by
  intro h w hr
  have hp := papers_atom hx h w hr.1
  have hids : ∀ a, (x.effect w).pool.idOf a = w.pool.idOf a := by
    intro a
    rw [Atom.idOf_effect]
    cases x <;> first | rfl | cases hx
  cases x with
  | alter | createMailbox | rekey | setAddress | revoke => cases hx
  | setId | sicken | dropId | finish | enroll => cases hx
  | eraseSick =>
    refine ⟨hp, fun hfair a ha => ?_⟩
    have hid : (w.pool.idOf a).isSome := (congrArg Option.isSome (hids a)).symm.trans ha
    have hin := hr.2 (fun v hv => hfair v (List.mem_append_left _ hv)) a hid
    obtain ⟨id, hid⟩ := Option.isSome_iff_exists.mp hid
    have hwell := hr.1.1.forget.well_of_idOf hid
    exact List.mem_filter.mpr ⟨hin, by rw [hwell]; rfl⟩
  | erase c =>
    refine ⟨hp, fun hfair a ha => ?_⟩
    have hid : (w.pool.idOf a).isSome := (congrArg Option.isSome (hids a)).symm.trans ha
    have hin := hr.2 (fun v hv => hfair v (List.mem_append_left _ hv)) a hid
    have hnone := hfair _ (List.mem_append_right _ (List.mem_singleton_self _)) c rfl
    have hne : a ≠ c := by
      rintro rfl
      rw [hnone] at hid
      cases hid
    exact (List.mem_erase_of_ne hne).mpr hin
  | _ =>
    refine rolls_append hr hp (fun a ha => ?_) (Atom.table_effect _ w)
    rwa [← hids a]

/-! ### Outsiders -/

/-- The act touches nothing of the pool but its post office. -/
def Postbound (t : Act σ α) : Prop := ∀ w, ∃ o, (t.run w).2.pool = { w.pool with office := o }

theorem rolls_of_postbound {t : Act σ α} (ht : Postbound t)
    (hp : Leads (Papers who) t fun _ => Papers who) : Leads (Rolls who) t fun _ => Rolls who := by
  intro h w hr
  obtain ⟨o, ho⟩ := ht w
  refine rolls_append hr (hp h w hr.1) (fun a ha => ?_) ?_
  · rw [ho] at ha
    exact ha
  · rw [ho]

theorem postbound_createMailbox (c : Address) : Postbound (σ := σ) (createMailbox c) := by
  intro w
  rw [run_createMailbox]
  cases w.pool.office.create c with
  | error e => exact ⟨w.pool.office, rfl⟩
  | ok made => exact ⟨made.2, rfl⟩

theorem postbound_revoke (c : Address) : Postbound (σ := σ) (revoke c) :=
  fun w => ⟨w.pool.office.eraseEntry c, revokeFor_pool .caller c w⟩

theorem postbound_asOwner (b : BoxRef) {t : Act σ α} (ht : Postbound t) :
    Postbound (asOwner b t) := by
  intro w
  rw [asOwner, run_pool_bind]
  split
  · rw [run_bind]
    exact ht w
  · exact ⟨w.pool.office, rfl⟩

theorem postbound_poll (b : BoxRef) : Postbound (σ := σ) (poll b) := by
  intro w
  rw [run_poll]
  cases w.pool.office.poll b with
  | none => exact ⟨w.pool.office, rfl⟩
  | some taken => exact ⟨taken.2, rfl⟩

theorem postbound_readdress (b : BoxRef) (c : Address) : Postbound (σ := σ) (readdress b c) := by
  intro w
  rw [run_readdress]
  cases w.pool.office.readdress b c with
  | error e => exact ⟨w.pool.office, rfl⟩
  | ok o =>
    refine ⟨o, ?_⟩
    dsimp only
    split <;> rfl

theorem rolls_of_postal {t : Act σ α} (ht : Postal t) :
    Leads (Rolls who) t fun _ => Rolls who := by
  induction ht with
  | pure a => exact Leads.pure fun _ _ hr => hr
  | bind _ _ ih ih' => exact ih.bind ih'
  | atom hx => exact rolls_quiet hx
  | createMailbox c =>
    exact rolls_of_postbound (postbound_createMailbox c) (papers_of_postal (.createMailbox c))
  | revoke c => exact rolls_of_postbound (postbound_revoke c) (papers_of_postal (.revoke c))
  | poll b =>
    exact rolls_of_postbound (postbound_asOwner b (postbound_poll b)) (papers_of_postal (.poll b))
  | discard b =>
    have hbound : Postbound (discard (σ := σ) b) := fun w => ⟨w.pool.office.discard b, rfl⟩
    exact rolls_of_postbound (postbound_asOwner b hbound) (papers_of_postal (.discard b))
  | readdress b c =>
    exact rolls_of_postbound (postbound_asOwner b (postbound_readdress b c))
      (papers_of_postal (.readdress b c))

end Act

open Act

theorem rolls_upkeep (hc : company.Postal) :
    Upkeep company Rolls fun who id b h w =>
      Awaited who id b h w ∧ ((∀ v ∈ h, v.Fair) → w.pool.Enrolled) where
  plain who x hx := rolls_quiet (Atom.quiet_of_plain hx)
  outside who c := rolls_of_postal (hc c)
  revoke who c := rolls_of_postal (.revoke c)
  create who id := by
    rintro h w ⟨hr, hnext⟩
    have hrolls := rolls_of_postal (.createMailbox id.address) h w hr
    have hmade := (papers_upkeep hc).create who id h w ⟨hr.1, hnext⟩
    generalize (createMailbox id.address).run w = r at hrolls hmade ⊢
    obtain ⟨made, u⟩ := r
    cases made with
    | ok b => exact ⟨hmade, hrolls.2⟩
    | error e => exact hrolls
  enlist who id b size x hid hb hidle := by
    rintro h w ⟨hawaited, henrolled⟩
    refine ⟨(papers_upkeep hc).enlist who id b size x hid hb hidle h w hawaited, fun hfair a ha => ?_⟩
    have hold := henrolled fun v hv => hfair v (List.mem_append_left _ hv)
    let ready := (Atom.report (.registered id x.name size)).effect ((Atom.reserve id).effect w)
    change (((Atom.enroll x).effect ready).pool.idOf a).isSome at ha
    change a ∈ w.pool.table ++ [w.pool.actors.size]
    rw [Atom.idOf_effect] at ha
    dsimp only at ha
    split at ha
    · rename_i hnew
      rw [hnew]
      exact List.mem_append_right _ (List.mem_singleton_self _)
    · exact List.mem_append_left _ (hold a ha)
  claim a := by
    intro h w hr
    refine rolls_append hr ((papers_upkeep hc).claim a h w hr.1) (fun c hid => ?_)
      (Atom.table_effect (.claim a) w)
    exact (congrArg Option.isSome (Atom.idOf_effect (.claim a) w c)).symm.trans hid
  finish a o := by
    intro h w hr
    refine rolls_append hr ((papers_upkeep hc).finish a o h w hr.1) (fun c hid => ?_)
      (Atom.table_effect (.finish a o) w)
    exact (congrArg Option.isSome (Atom.idOf_effect (.finish a o) w c)).symm.trans hid
  changeId a id := by
    intro h w hr
    refine rolls_append hr ((papers_upkeep hc).changeId a id h w hr.1) (fun c hc => ?_) ?_
    · rw [changeId_pool] at hc
      rcases w.pool.renumbered_cases a id with hq | ⟨x, o, -, -, -, hq⟩
      · rwa [hq] at hc
      · rw [hq] at hc
        by_cases hca : c = a
        · rw [hca]
          exact hr.1.1.awake a rfl
        · change ((w.pool.modifyActor a _).idOf c).isSome at hc
          rwa [Pool.idOf_modifyActor, if_neg hca] at hc
    · rw [changeId_pool]
      rcases w.pool.renumbered_cases a id with hq | ⟨x, o, -, -, -, hq⟩ <;> rw [hq]
      rfl
  makeSick a := by
    intro h w hr
    refine rolls_append hr ((papers_upkeep hc).makeSick a h w hr.1) (fun c hc => ?_) ?_
    · rw [makeSick_pool] at hc
      change ((w.pool.modifyActor a Actor.stopped).idOf c).isSome at hc
      rw [Pool.idOf_modifyActor] at hc
      split at hc
      · cases hx : w.pool.actor? a <;> rw [hx] at hc <;> cases hc
      · exact hc
    · rw [makeSick_pool]
      rfl

/-- In every pool at rest: whoever has an ID is in the table. -/
theorem enrolled_of_run (hc : company.Postal) (hs : company.Sparing) (config : Config) (env : σ.Env)
    (rs : List (Routine σ)) :
    ((Routine.all company rs).run (.empty config env)).2.pool.Enrolled := by
  have hstart : Rolls none [] (World.empty config env : World σ) := by
    refine ⟨Papers.start config env, fun _ a ha => ?_⟩
    simp [World.empty, Pool.idOf, Pool.actor?] at ha
  have hall := (rolls_upkeep hc).all rs [] _ hstart
  rw [List.nil_append] at hall
  exact hall.2 (Routine.all_fair hs rs _)

/-! ## Unregistering -/

/-- Unregistering this ID goes by the actors: if no actor of the table has it, nothing happens and
this is what the answer says; and no other owner of a mailbox gets a letter or loses an address. -/
structure World.Discerning (w : World σ) (id : ActorId) : Prop where
  unknown : (∀ a ∈ w.pool.table, w.pool.idOf a ≠ some id) →
    (unregister id).run w = (.error (.actorNotFound id), w.report (.unknownAddress id.address))
  spared : ∀ b, w.pool.isSpare b →
    ((unregister id).run w).2.pool.office.box? b = w.pool.office.box? b ∧
      ∀ c, w.pool.office.Attached c b → ((unregister id).run w).2.pool.office.Attached c b

namespace Act

variable {w : World σ} {id : ActorId} {b : BoxRef}

theorem unregister_of_free (hw : w.pool.office.Coherent)
    (hat : w.pool.office.boxAt id.address = none) :
    (unregister id).run w = (.error (.actorNotFound id), w.report (.unknownAddress id.address)) := by
  rw [unregister, run_bind, run_post, hw.resolve_eq, hat]
  rfl

theorem unregister_of_taken (hw : w.pool.office.Coherent)
    (hat : w.pool.office.boxAt id.address = some b) :
    ((unregister id).run w).2.pool.office = (w.pool.office.put b .poison).eraseEntry id.address := by
  have howned := hw.isOwned (hw.boxAt_eq_some_iff.mp hat)
  rw [run_unregister_of_found w (Option.filter_eq_some_iff.mpr ⟨hat, howned⟩)]
  rfl

end Act

/-- In a pool at rest the owner of the mailbox at the address of an ID is an actor of the table
that has this ID, or no actor. -/
theorem Pool.Enrolled.holder {p : Pool σ} (he : p.Enrolled) (hp : p.InOrder none) {id : ActorId}
    {b : BoxRef} (hat : p.office.Attached id.address b) :
    p.isSpare b ∨ ∃ a ∈ p.table, p.idOf a = some id := by
  by_cases hspare : p.isSpare b
  · exact .inl hspare
  obtain ⟨a, ha⟩ : ∃ a, p.boxOf a = some b := by
    by_contra hnone
    exact hspare (isSpare_iff.mpr ⟨hat.2, fun a ha => hnone ⟨a, ha⟩⟩)
  obtain ⟨i, hi⟩ : ∃ i, p.idOf a = some i := by
    refine Option.ne_none_iff_exists'.mp fun hnone => ?_
    exact hp.detached a b id.address ha hnone hat.1
  -- the mailbox remembers the address that goes with this ID
  have haddress : i.address = id.address :=
    (hp.named a b i ha hi).symm.trans (hp.office.addressOf hat.1)
  have hsame : i = id := by
    cases i
    cases id
    exact congrArg ActorId.mk (congrArg Address.raw haddress)
  rw [hsame] at hi
  exact .inr ⟨a, he a (by rw [hi]; rfl), hi⟩

/-- After any routines, one after another and by either strategy, whatever mailboxes of its own the
outside has in the post office and whatever it does with them: unregistering an ID goes by the
actors exactly if no mailbox is registered at the address of this ID whose owner is no actor. -/
theorem unregister_discerns_iff (company : Company σ) (hc : company.Postal) (hs : company.Sparing)
    (config : Config) (env : σ.Env) (rs : List (Routine σ)) (w : World σ)
    (hw : ((Routine.all company rs).run (.empty config env)).2 = w) (id : ActorId) :
    w.Discerning id ↔ ∀ b, w.pool.isSpare b → ¬w.pool.office.Attached id.address b := by
  have horder : w.pool.InOrder none := by
    have hall := (papers_upkeep hc).all rs [] _ (Papers.start config env)
    rw [hw] at hall
    exact hall.1
  have henrolled : w.pool.Enrolled := hw ▸ enrolled_of_run hc hs config env rs
  have hoffice := horder.office
  constructor
  · intro hdiscerning b hspare hattached
    have hat := hoffice.boxAt_eq_some_iff.mpr hattached.1
    have hbox := (hdiscerning.spared b hspare).1
    rw [unregister_of_taken hoffice hat] at hbox
    change (w.pool.office.put b .poison).box? b = _ at hbox
    -- the poison message is in the mailbox
    have hmail : (w.pool.office.put b .poison).mail b = w.pool.office.mail b := by
      rw [Office.mail, hbox, Office.mail]
    rw [Office.mail_put _ (Office.box?_isSome_of_isOwned _ hattached.2), if_pos rfl] at hmail
    simp at hmail
  · intro hnone
    constructor
    · intro hunknown
      refine unregister_of_free hoffice ?_
      cases hat : w.pool.office.boxAt id.address with
      | none => rfl
      | some b =>
        have hattached := hoffice.attached_iff.mpr (hoffice.boxAt_eq_some_iff.mp hat)
        rcases henrolled.holder horder hattached with hspare | ⟨a, ha, hid⟩
        · exact absurd hattached (hnone b hspare)
        · exact absurd hid (hunknown a ha)
    · intro b hspare
      cases hat : w.pool.office.boxAt id.address with
      | none =>
        rw [unregister_of_free hoffice hat]
        exact ⟨rfl, fun c hc => hc⟩
      | some d =>
        have hattached := hoffice.attached_iff.mpr (hoffice.boxAt_eq_some_iff.mp hat)
        have hdb : d ≠ b := by
          rintro rfl
          exact hnone d hspare hattached
        have hbox : ((w.pool.office.put d .poison).eraseEntry id.address).box? b =
            w.pool.office.box? b := (Office.box?_put _ d b _).trans (if_neg hdb)
        rw [unregister_of_taken hoffice hat]
        refine ⟨hbox, fun c hc => ⟨?_, ?_⟩⟩
        · refine Office.mem_entries_eraseEntry.mpr ⟨hc.1, ?_⟩
          rintro rfl
          exact hnone b hspare hc
        · rw [Office.isOwned, hbox]
          exact hc.2

namespace Squatter

/-- One actor registers, and the outside settles at the address of an ID. -/
def settling (id : ActorId) : List (Routine signature) :=
  [.serve (.ask (.register ()) fun _ => .done ()), .serve (.ask (.call id) fun _ => .done ())]

def worldAfter (id : ActorId) : World signature :=
  ((Routine.all Squatter.company (settling id)).run (.empty {} ())).2

end Squatter

theorem settling_discerns : (Squatter.worldAfter ⟨5⟩).Discerning ⟨7⟩ := by
  have hc : Squatter.company.Postal :=
    fun id => .bind (.revoke id.address) fun _ => .createMailbox id.address
  have hs : Squatter.company.Sparing := by
    intro id
    refine Dialogue.all_bind (all_revokeFor (P := fun x => x.sparing) (fun _ => rfl) rfl) fun _ => ?_
    exact all_createMailbox (P := fun x => x.sparing) (fun _ => rfl) rfl
  have hfree : ∀ e ∈ (Squatter.worldAfter ⟨5⟩).pool.office.entries, e.1 ≠ ⟨7⟩ := by decide +kernel
  refine (unregister_discerns_iff Squatter.company hc hs {} () (Squatter.settling ⟨5⟩) _ rfl
    ⟨7⟩).mpr ?_
  exact fun b _ hattached => hfree _ hattached.1 rfl

namespace World

/-- No actor has the ID `id`, the mailbox 1, which is no actor's, is empty and registered at that
address; to unregister the ID goes well, and then the mailbox has a letter and no address. -/
def Dismisses (w : World Squatter.signature) (id : ActorId) : Prop :=
  (∀ a ∈ w.pool.table, w.pool.idOf a ≠ some id) ∧ w.pool.isSpare 1 ∧
    w.pool.office.boxAt id.address = some 1 ∧ (w.pool.office.mail 1).length = 0 ∧
    ((unregister id).run w).1.isOk ∧
    (((unregister id).run w).2.pool.office.mail 1).length = 1 ∧
    ((unregister id).run w).2.pool.office.boxAt id.address = none

instance (w : World Squatter.signature) (id : ActorId) : Decidable (w.Dismisses id) :=
  inferInstanceAs (Decidable (_ ∧ _))

end World

/-- The mailbox of a number and that of a name. -/
theorem squatter_is_dismissed : (Squatter.worldAfter ⟨5⟩).Dismisses ⟨5⟩ ∧
    (Squatter.worldAfter ⟨(Address.ofName "main").raw⟩).Dismisses ⟨(Address.ofName "main").raw⟩ :=
  ⟨by decide +kernel, by decide +kernel⟩

end ActorSystem
