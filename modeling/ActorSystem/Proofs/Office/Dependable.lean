import ActorSystem.District
import ActorSystem.Proofs.Mute
import ActorSystem.Proofs.Office.Registry

/-!
# Post offices can be depended on

What somebody does to an office in a world is, for the office, one of its functions. So whatever
is ordered in a district, in whatever order of events, every registry stays coherent: a letter is
delivered exactly if a live mailbox is attached where it goes, and nobody who has lost an address
disturbs the mailbox that has it now.

* `run_post`, `run_readdress`, ...: each act on an office as a function.
* `Branch.Sound`: the invariant, kept by every order (`Sound.obey`) and every run (`sound_play`).
* `Branch.inherits_obey`: no order brings a lost entry back.
* `district_is_reliable`: what all of this is good for.
-/

namespace ActorSystem

variable {σ : Signature}

/-! ## Acts on an office -/

namespace Act

variable (w : World σ)

theorem run_ask {β : Type} (x : Atom σ) (f : x.Answer → Act σ β) :
    run (atom x >>= f) w = run (f (x.answer w)) (x.effect w) := rfl

theorem run_createMailbox (a : Address) :
    (createMailbox a).run w = match w.pool.office.create a with
      | .ok (b, o) => (.ok b, (w.modifyOffice fun _ => o).report (.mailboxCreated a))
      | .error e => (.error e, w.report (.addressInUse a)) := by
  refine (run_ask w (.createMailbox a) _).trans ?_
  dsimp only [Atom.answer, Atom.effect]
  cases w.pool.office.create a <;> rfl

theorem run_post (a : Address) (m : Message σ.Value) :
    (post a m).run w = match w.pool.office.resolve a with
      | (some b, o) => (.ok (), w.modifyOffice fun _ => o.put b m)
      | (none, o) =>
        (.error (.addressNotFound a), (w.modifyOffice fun _ => o).report (.unknownAddress a)) := by
  refine (run_ask w (.resolve a) _).trans ?_
  dsimp only [Atom.answer, Atom.effect, World.modifyOffice, World.modifyPool]
  rcases w.pool.office.resolve a with ⟨_ | b, o⟩ <;> rfl

theorem run_revoke (a : Address) :
    (revoke a).run w = ((w.pool.office.boxAt a).isSome,
      if (w.pool.office.boxAt a).isSome
      then (w.modifyOffice (·.eraseEntry a)).report (.addressRevoked a)
      else w.modifyOffice (·.eraseEntry a)) := by
  refine (run_ask w (.revoke .caller a) _).trans ?_
  dsimp only [Atom.answer, Atom.effect, Office.revoke]
  by_cases h : (w.pool.office.boxAt a).isSome
  · simp only [h, if_true]
    rfl
  · simp only [h]
    rfl

theorem run_post_of_found {a : Address} {b : BoxRef} (h : w.pool.office.find? a = some b)
    (m : Message σ.Value) : (post a m).run w = (.ok (), w.modifyOffice (·.put b m)) := by
  rw [run_post, Office.resolve_of_find? h]
  rfl

/-- Whoever is at the address gets the poison message and loses the address. -/
theorem run_unregister_of_found {id : ActorId} {b : BoxRef}
    (h : w.pool.office.find? id.address = some b) :
    (unregister id).run w = (.ok (),
      ((w.modifyOffice fun o => (o.put b .poison).eraseEntry id.address).report
        (.addressRevoked id.address)).report (.unregisterRequested id)) := by
  have hat : (w.modifyOffice (·.put b .poison)).pool.office.boxAt id.address = some b :=
    (Option.filter_eq_some_iff.mp h).1
  rw [unregister, run_bind, run_post_of_found w h]
  dsimp only
  rw [run_bind, run_revoke, hat]
  rfl

theorem run_poll (b : BoxRef) :
    (poll b).run w = match w.pool.office.poll b with
      | some (m, o) => (some m, w.modifyOffice fun _ => o)
      | none => (none, w) := by
  refine (run_ask w .look _).trans ?_
  dsimp only [Atom.answer, Atom.effect]
  cases w.pool.office.poll b with
  | none => simp only [run_pure]
  | some r =>
    simp only
    rfl

theorem run_readdress (b : BoxRef) (c : Address) :
    (readdress b c).run w = match w.pool.office.readdress b c with
      | .ok o => (.ok (), World.modifyOffice (if w.pool.office.addressOf b = c then w
          else w.report (.mailboxMoved (w.pool.office.addressOf b) c)) fun _ => o)
      | .error e => (.error e, w) := by
  unfold Office.readdress
  refine (run_ask w .look _).trans ?_
  dsimp only [Atom.answer, Atom.effect]
  by_cases hclosed : w.pool.office.closed
  · simp only [hclosed]
    rfl
  · simp only [hclosed]
    refine (run_ask w (.rekey b _ c) _).trans ?_
    dsimp only [Atom.answer, Atom.effect]
    cases w.pool.office.rekey b (w.pool.office.addressOf b) c with
    | error e => rfl
    | ok o => by_cases hs : w.pool.office.addressOf b = c <;> simp [hs] <;> rfl

end Act

/-! ## What an order does to an office -/

/-- `o'` is `o` after some of the things that can be done to an open office. -/
inductive Office.Edited {V : Type} : Office V → Office V → Prop
  | refl (o : Office V) : Edited o o
  | trans {o o' o'' : Office V} (h : Edited o o') (h' : Edited o' o'') : Edited o o''
  | create {o o' : Office V} {a : Address} {b : BoxRef} (hopen : o.closed = false)
    (h : o.create a = .ok (b, o')) : Edited o o'
  | resolve (o : Office V) (a : Address) : Edited o (o.resolve a).2
  | eraseEntry (o : Office V) (a : Address) : Edited o (o.eraseEntry a)
  | put (o : Office V) (b : BoxRef) (m : Message V) : Edited o (o.put b m)
  | poll {o o' : Office V} {b : BoxRef} {m : Message V} (h : o.poll b = some (m, o')) : Edited o o'
  | readdress {o o' : Office V} {b : BoxRef} {c : Address} (h : o.readdress b c = .ok o') :
    Edited o o'
  | discard (o : Office V) (b : BoxRef) : Edited o (o.discard b)

namespace Office.Edited

variable {V : Type} {o o' : Office V}

theorem coherent (h : Edited o o') (hc : o.Coherent) : o'.Coherent := by
  induction h with
  | refl => exact hc
  | trans _ _ ih ih' => exact ih' (ih hc)
  | create hopen h => exact hc.create hopen h
  | resolve => exact hc.resolve
  | eraseEntry => exact hc.eraseEntry
  | put => exact hc.put _
  | poll h => exact hc.poll h
  | readdress h => exact hc.readdress h
  | discard => exact hc.discard

theorem inherits (h : Edited o o') : o.Inherits o' := by
  induction h with
  | refl => exact .refl _
  | trans _ _ ih ih' => exact ih.trans ih'
  | create _ h => exact .create h
  | resolve => exact .resolve _ _
  | eraseEntry => exact .eraseEntry _ _
  | put => exact .modifyBox _ _ _
  | poll h => exact .poll h
  | readdress h => exact .readdress h
  | discard => exact .discard _ _

theorem closed_eq (h : Edited o o') : o'.closed = o.closed := by
  induction h with
  | refl => rfl
  | trans _ _ ih ih' => exact ih'.trans ih
  | create _ h =>
    obtain ⟨rfl, rfl⟩ := create_eq_ok h
    rfl
  | resolve o a =>
    unfold Office.resolve
    split
    · rfl
    · split <;> rfl
  | eraseEntry => rfl
  | put => rfl
  | poll h =>
    unfold Office.poll at h
    split at h <;> cases h
    rfl
  | @readdress o o' b c h =>
    unfold Office.readdress at h
    dsimp only at h
    split at h
    · cases h
    cases hk : o.rekey b (o.addressOf b) c with
    | error e =>
      rw [hk] at h
      cases h
    | ok k =>
      rw [hk] at h
      cases h
      exact (rekey_eq_ok hk).2.2.2.1
  | discard o b =>
    unfold Office.discard
    dsimp only
    split <;> rfl

end Office.Edited

namespace Branch

/-- The registry is coherent, and gone only if no handle leads there. -/
structure Sound (x : Branch σ) : Prop where
  coherent : x.office.Coherent
  reached : 0 < x.handles → x.office.closed = false

variable {x : Branch σ} {order : Order σ}

/-- Every order but the one to give up a handle. -/
theorem edited_obey (hopen : 0 < x.handles → x.office.closed = false) (ht : x.takes order)
    (hd : order ≠ .dropHandle) :
    x.office.Edited (x.obey order).office ∧ (0 < (x.obey order).handles → 0 < x.handles) := by
  cases order with
  | create a =>
    refine ⟨?_, id⟩
    simp only [obey, after, office, Act.run_createMailbox]
    cases hc : x.office.create a with
    | error e => exact .refl _
    | ok r => exact .create (hopen (by simpa [takes] using ht)) hc
  | post a m =>
    refine ⟨?_, id⟩
    have hresolve := Office.Edited.resolve x.office a
    simp only [obey, after, office, Act.run_post]
    rcases hr : x.office.resolve a with ⟨_ | b, o⟩ <;> rw [hr] at hresolve
    · exact hresolve
    · exact hresolve.trans (.put o b m)
  | revoke a =>
    refine ⟨?_, id⟩
    simp only [obey, after, office, Act.run_revoke]
    split <;> exact .eraseEntry _ a
  | contains a => exact ⟨.resolve _ a, id⟩
  | copyHandle => exact ⟨.refl _, fun _ => by simpa [takes] using ht⟩
  | dropHandle => exact absurd rfl hd
  | readdress b c =>
    refine ⟨?_, id⟩
    simp only [obey, after, office, Act.run_readdress]
    cases hr : x.office.readdress b c with
    | error e => exact .refl _
    | ok o => exact .readdress hr
  | put b m => exact ⟨.put _ b m, id⟩
  | poll b =>
    refine ⟨?_, id⟩
    simp only [obey, after, office, Act.run_poll]
    cases hp : x.office.poll b with
    | none => exact .refl _
    | some r => exact .poll hp
  | discard b => exact ⟨.discard _ b, id⟩

theorem Sound.obey (hx : Sound x) (ht : x.takes order) : Sound (x.obey order) := by
  by_cases hd : order = .dropHandle
  · subst hd
    show Sound x.dropHandle
    unfold dropHandle
    split
    · exact ⟨Office.Coherent.close, nofun⟩
    · rename_i hle
      exact ⟨hx.coherent, fun _ => hx.reached (by omega)⟩
  · obtain ⟨hedited, hhandles⟩ := edited_obey hx.reached ht hd
    refine ⟨hedited.coherent hx.coherent, fun hpos => ?_⟩
    rw [hedited.closed_eq]
    exact hx.reached (hhandles hpos)

theorem inherits_obey (hx : Sound x) (ht : x.takes order) :
    x.office.Inherits (x.obey order).office := by
  by_cases hd : order = .dropHandle
  · subst hd
    show x.office.Inherits x.dropHandle.office
    unfold dropHandle
    split
    · exact .close _
    · exact .refl _
  · exact (edited_obey hx.reached ht hd).1.inherits

end Branch

/-! ## Districts -/

namespace District

variable {d d' : District σ} {i : Nat} {x : Branch σ}

theorem sound_new (config : Config) (env : σ.Env) : (Branch.new config env).Sound where
  coherent := ⟨List.nodup_nil, nofun, fun _ => rfl⟩
  reached _ := rfl

theorem sound_step {e : Errand σ} (hd : ∀ x ∈ d, x.Sound) (h : d.step e = some d') :
    ∀ x ∈ d', x.Sound := by
  rcases step_cases h with ⟨config, env, -, rfl⟩ | ⟨i, order, x, -, hx, ht, rfl⟩
  · intro y hy
    rcases Array.mem_push.mp hy with hy | rfl
    · exact hd y hy
    · exact sound_new config env
  · intro y hy
    obtain ⟨k, hk⟩ := Array.getElem?_of_mem hy
    rw [Array.getElem?_modify] at hk
    split at hk
    · rename_i hik
      subst hik
      rw [hx] at hk
      cases hk
      exact (hd x (Array.mem_of_getElem? hx)).obey ht
    · exact hd y (Array.mem_of_getElem? hk)

theorem sound_play {es : List (Errand σ)} (hd : ∀ x ∈ d, x.Sound) (h : d.play es = some d') :
    ∀ x ∈ d', x.Sound :=
  Moves.play_induction (P := fun d => ∀ x ∈ d, x.Sound) (fun _ _ _ => sound_step) hd h

/-- An order concerns nobody but its office. -/
theorem step_elsewhere {order : Order σ} (h : d.step (.give i order) = some d') {k : Nat}
    (hk : k ≠ i) : d'[k]? = d[k]? := by
  rcases step_cases h with ⟨_, _, he, -⟩ | ⟨j, _, _, he, -, -, rfl⟩
  · cases he
  · cases he
    rw [Array.getElem?_modify, if_neg hk.symm]

theorem inherits_step {e : Errand σ} (hd : ∀ x ∈ d, x.Sound) (hx : d[i]? = some x)
    (h : d.step e = some d') : ∃ x', d'[i]? = some x' ∧ x.office.Inherits x'.office := by
  rcases step_cases h with ⟨config, env, -, rfl⟩ | ⟨j, order, y, -, hy, ht, rfl⟩
  · have hlt : i < d.size := (Array.getElem?_eq_some_iff.mp hx).1
    exact ⟨x, by rw [Array.getElem?_push, if_neg (Nat.ne_of_lt hlt), hx], .refl _⟩
  · rw [Array.getElem?_modify]
    split
    · rename_i hji
      subst hji
      rw [hx] at hy
      cases hy
      exact ⟨x.obey order, by rw [hx]; rfl,
        Branch.inherits_obey (hd x (Array.mem_of_getElem? hx)) ht⟩
    · exact ⟨x, hx, .refl _⟩

theorem inherits_play {es : List (Errand σ)} (hd : ∀ x ∈ d, x.Sound) (hx : d[i]? = some x)
    (h : d.play es = some d') : ∃ x', d'[i]? = some x' ∧ x.office.Inherits x'.office := by
  have hboth := Moves.play_induction
    (P := fun e : District σ => (∀ y ∈ e, y.Sound) ∧
      ∃ x', e[i]? = some x' ∧ x.office.Inherits x'.office)
    (fun e e' m hp (hs : e.step m = some e') => by
      obtain ⟨hsound, y, hy, hxy⟩ := hp
      obtain ⟨z, hz, hyz⟩ := inherits_step hsound hy hs
      exact ⟨sound_step hsound hs, z, hz, hxy.trans hyz⟩)
    ⟨hd, x, hx, .refl _⟩ h
  exact hboth.2

end District

/-! ## What can be depended on -/

/-- What holds of the office of a world between two orders. -/
structure Dependable (w : World σ) : Prop where
  /-- An entry is of one live mailbox, which believes it is there. -/
  entry : ∀ a b, (a, b) ∈ w.pool.office.entries → w.pool.office.isOwned b ∧
    w.pool.office.addressOf b = a ∧ ∀ d, (a, d) ∈ w.pool.office.entries → d = b
  /-- No mailbox has two entries, and none is listed twice. -/
  single : w.pool.office.entries.Nodup ∧ ∀ a c b, (a, b) ∈ w.pool.office.entries →
    (c, b) ∈ w.pool.office.entries → a = c
  size : w.pool.office.size =
    ((List.range w.pool.office.boxes.size).filter w.pool.office.isAttached).length
  accepts : ∀ a m, ((Act.post a m).run w).1 = .ok () ↔ ∃ b, w.pool.office.Attached a b
  /-- A letter that is accepted is the last one in the queue of its mailbox, and that is all. -/
  delivers : ∀ a m b, w.pool.office.Attached a b → (Act.post a m).run w = (.ok (),
    w.modifyOffice fun o =>
      { o with boxes := o.boxes.modify b fun box => { box with queue := box.queue ++ [m] } })
  /-- A letter that comes back leaves nothing but a report. -/
  refuses : ∀ a m, (∀ b, ¬ w.pool.office.Attached a b) →
    (Act.post a m).run w = (.error (.addressNotFound a), w.report (.unknownAddress a))
  /-- Whoever drops a mailbox without an entry leaves the registry alone. -/
  discards : ∀ b, (∀ a, ¬ w.pool.office.Attached a b) →
    ((Act.discard b).run w).2.pool.office.entries = w.pool.office.entries
  /-- A mailbox without an entry cannot be moved. -/
  stays : ∀ b c, (∀ a, ¬ w.pool.office.Attached a b) →
    (Act.readdress b c).run w = (.error (.addressNotFound (w.pool.office.addressOf b)), w)

namespace Dependable

variable {w : World σ}

theorem of_coherent (h : w.pool.office.Coherent) : Dependable w := by
  have hdelivers : ∀ a m b, w.pool.office.Attached a b →
      (Act.post a m).run w = (.ok (), w.modifyOffice fun o =>
        { o with boxes := o.boxes.modify b fun box => { box with queue := box.queue ++ [m] } }) := by
    intro a m b hab
    rw [Act.run_post, h.resolve_eq, h.boxAt_eq_some_iff.mpr hab.1]
    rfl
  have hrefuses : ∀ a m, (∀ b, ¬ w.pool.office.Attached a b) →
      (Act.post a m).run w = (.error (.addressNotFound a), w.report (.unknownAddress a)) := by
    intro a m hnone
    have hat : w.pool.office.boxAt a = none := by
      refine Option.eq_none_iff_forall_ne_some.mpr fun b hb => ?_
      exact hnone b (h.attached_iff.mpr (h.boxAt_eq_some_iff.mp hb))
    rw [Act.run_post, h.resolve_eq, hat]
    rfl
  have hdetached : ∀ b, (∀ a, ¬ w.pool.office.Attached a b) →
      ∀ a, (a, b) ∉ w.pool.office.entries :=
    fun b hb a hab => hb a (h.attached_iff.mpr hab)
  refine ⟨fun a b hab => ⟨h.isOwned hab, h.addressOf hab, fun d hd => h.box_unique hd hab⟩,
    ⟨.of_map _ h.keys, fun a c b ha hc => h.address_unique ha hc⟩, h.size_eq, fun a m => ?_,
    hdelivers, hrefuses, fun b hb => h.entries_discard_of_detached (hdetached b hb),
    fun b c hb => ?_⟩
  · by_cases hany : ∃ b, w.pool.office.Attached a b
    · obtain ⟨b, hab⟩ := hany
      simp only [hdelivers a m b hab, true_iff]
      exact ⟨b, hab⟩
    · rw [hrefuses a m (not_exists.mp hany)]
      exact iff_of_false nofun hany
  · rw [Act.run_readdress, h.readdress_of_detached (hdetached b hb)]

end Dependable

/-- What holds of a district between two errands. -/
structure Reliable (d : District σ) : Prop where
  branches : ∀ x ∈ d, Dependable x.world
  /-- An order concerns nobody but its office. -/
  apart : ∀ i order d', d.step (.give i order) = some d' → ∀ k, k ≠ i → d'[k]? = d[k]?
  /-- A mailbox whose address was revoked never has an entry again. Whoever drops it or wants to
  move it, however much later, leaves all entries as they are. -/
  revoked : ∀ i x a b es d', d[i]? = some x → x.office.Attached a b →
    d.play (.give i (.revoke a) :: es) = some d' →
    ∃ x', d'[i]? = some x' ∧ (∀ c, ¬ x'.office.Attached c b) ∧
      (x'.obey (.discard b)).office.entries = x'.office.entries ∧
      ∀ c, (x'.obey (.readdress b c)).office = x'.office

theorem district_is_reliable {es : List (Errand σ)} {d : District σ}
    (h : District.play #[] es = some d) : Reliable d := by
  have hsound : ∀ x ∈ d, x.Sound := District.sound_play (by simp) h
  refine ⟨fun x hx => .of_coherent (hsound x hx).coherent,
    fun i order d' hs k hk => District.step_elsewhere hs hk, ?_⟩
  intro i x a b fs d' hx hab hplay
  have hcoherent := (hsound x (Array.mem_of_getElem? hx)).coherent
  obtain ⟨d₁, hstep, hplay⟩ := Moves.play_cons.mp hplay
  have hsound₁ := District.sound_step hsound hstep
  obtain ⟨x', hx', hinherits⟩ : ∃ x', d'[i]? = some x' ∧
      (x.obey (.revoke a)).office.Inherits x'.office := by
    rcases District.step_cases hstep with ⟨_, _, he, -⟩ | ⟨j, _, y, he, hy, -, rfl⟩
    · cases he
    · cases he
      rw [hx] at hy
      cases hy
      refine District.inherits_play hsound₁ ?_ hplay
      rw [Array.getElem?_modify, if_pos rfl, hx]
      rfl
  have hoffice : (x.obey (.revoke a)).office = x.office.eraseEntry a := by
    simp only [Branch.obey, Branch.after, Branch.office, Act.run_revoke]
    split <;> rfl
  rw [hoffice] at hinherits
  have hlost : ∀ c, (c, b) ∉ (x.office.eraseEntry a).entries := by
    intro c hcb
    obtain ⟨hcb, hne⟩ := Office.mem_entries_eraseEntry.mp hcb
    exact hne (hcoherent.address_unique hcb hab.1)
  have hdetached := hinherits.detached (x.office.lt_size_of_isOwned hab.2) hlost
  have hsound' := District.sound_play hsound₁ hplay x' (Array.mem_of_getElem? hx')
  have hdependable := Dependable.of_coherent hsound'.coherent
  have hnone : ∀ c, ¬ x'.office.Attached c b := fun c hcb => hdetached c hcb.1
  refine ⟨x', hx', hnone, hdependable.discards b hnone, fun c => ?_⟩
  simp only [Branch.obey, Branch.after, Branch.office, hdependable.stays b c hnone]

/-- The first owner of address 5 loses it, and then neither moves nor disturbs the second one. -/
def Mute.takeover : List (Errand Mute.signature) :=
  [.found {} (), .found {} (), .give 0 (.create ⟨5⟩), .give 0 (.revoke ⟨5⟩), .give 0 (.create ⟨5⟩),
    .give 0 (.readdress 0 ⟨6⟩), .give 0 (.discard 0), .give 0 (.post ⟨5⟩ (.ofControl .poison)),
    .give 1 (.post ⟨5⟩ (.ofControl .poison)), .give 1 .dropHandle]

theorem takeover_is_reliable : ∃ d, District.play #[] Mute.takeover = some d ∧ Reliable d ∧
    d.map (fun x => x.office.entries) = #[[(⟨5⟩, 1)], []] := by
  have hentries : (District.play #[] Mute.takeover).map (·.map fun x => x.office.entries) =
      some #[[(⟨5⟩, 1)], []] := by decide +kernel
  obtain ⟨d, hd, hdentries⟩ := Option.map_eq_some_iff.mp hentries
  exact ⟨d, hd, district_is_reliable hd, hdentries⟩

end ActorSystem
