import ActorSystem.Proofs.Crew.Exclusion
import ActorSystem.Proofs.Office.Registry

/-!
# Addresses in a crew

A thread that moves a mailbox edits the registry first and the mailbox after that, and other
threads may come between. So in a crew the registry and the mailboxes need not agree; what can be
relied on is that no mailbox is registered twice, and that none gets an entry back.

* `Office.Listed`: what holds of the registry at any time.
* `Sane.boxOf_play`: an actor keeps its mailbox.
* `Sane.detached_play`: a mailbox that has lost its entry stays without one.
* `Sane.vacant_play`: an address that nobody has is free until a mailbox is placed there.
-/

namespace ActorSystem

/-! ## The registry -/

namespace Office

variable {V : Type} {o o' : Office V} {a c : Address} {b : BoxRef}

structure Listed (o : Office V) : Prop where
  once : ∀ a c b, (a, b) ∈ o.entries → (c, b) ∈ o.entries → a = c
  known : ∀ a b, (a, b) ∈ o.entries → b < o.boxes.size
  /-- Nobody drops a mailbox. -/
  owned : ∀ b, (o.box? b).isSome → o.isOwned b

/-- `o'` is `o` after one access of a crew. -/
inductive Touched : Office V → Office V → Prop
  | refl (o : Office V) : Touched o o
  | create {o o' : Office V} {a : Address} {b : BoxRef} (h : o.create a = .ok (b, o')) : Touched o o'
  | eraseEntry (o : Office V) (a : Address) : Touched o (o.eraseEntry a)
  | rekey {o o' : Office V} {a c : Address} {b : BoxRef} (h : o.rekey b a c = .ok o') : Touched o o'
  | modifyBox (o : Office V) (b : BoxRef) {f : Mailbox V → Mailbox V}
    (hf : ∀ box, (f box).owned = box.owned) : Touched o (o.modifyBox b f)

theorem Touched.inherits (h : Touched o o') : o.Inherits o' := by
  cases h with
  | refl => exact .refl o
  | create h => exact .create h
  | eraseEntry a => exact .eraseEntry o a
  | rekey h => exact .rekey h
  | modifyBox b hf => exact .modifyBox o b _

theorem Touched.closed_eq (h : Touched o o') : o'.closed = o.closed := by
  cases h with
  | refl => rfl
  | create h =>
    obtain ⟨-, rfl⟩ := create_eq_ok h
    rfl
  | eraseEntry a => rfl
  | rekey h => exact (rekey_eq_ok h).2.2.2.1
  | modifyBox b hf => rfl

theorem Touched.isOwned (h : Touched o o') (hb : o.isOwned b) : o'.isOwned b := by
  cases h with
  | refl => exact hb
  | create h =>
    rw [Office.isOwned, (isOwned_create h hb).2]
    exact hb
  | eraseEntry a => exact hb
  | rekey h =>
    rw [Office.isOwned, box?, (rekey_eq_ok h).2.2.1]
    exact hb
  | modifyBox d hf =>
    obtain ⟨box, hbox, howned⟩ := isOwned_iff.mp hb
    rw [Office.isOwned, box?_modifyBox, hbox]
    split
    · simp [hf, howned]
    · simp [howned]

namespace Listed

theorem empty : Listed ({} : Office V) where
  once a c b ha := by cases ha
  known a b ha := by cases ha
  owned b hb := by simp [box?] at hb

/-- Fewer entries for the same mailboxes. -/
theorem of_entries (h : Listed o) (hentries : ∀ a b, (a, b) ∈ o'.entries → (a, b) ∈ o.entries)
    (hboxes : o'.boxes = o.boxes) : Listed o' where
  once a c b ha hc := h.once a c b (hentries a b ha) (hentries c b hc)
  known a b ha := by
    rw [hboxes]
    exact h.known a b (hentries a b ha)
  owned b hb := by
    rw [isOwned, box?, hboxes]
    rw [box?, hboxes] at hb
    exact h.owned b hb

/-- A mailbox without an entry gets one. -/
theorem once_setEntry (h : ∀ a c b, (a, b) ∈ o.entries → (c, b) ∈ o.entries → a = c)
    (hb : ∀ d, (d, b) ∉ o.entries) (d e : Address) (f : BoxRef)
    (hd : (d, f) ∈ (o.setEntry a b).entries) (he : (e, f) ∈ (o.setEntry a b).entries) : d = e := by
  rcases mem_entries_setEntry.mp hd with ⟨hdf, -⟩ | ⟨hda, hfb⟩ <;>
    rcases mem_entries_setEntry.mp he with ⟨hef, -⟩ | ⟨hea, hfb'⟩
  · exact h d e f hdf hef
  · rw [hfb'] at hdf
    exact absurd hdf (hb d)
  · rw [hfb] at hef
    exact absurd hef (hb e)
  · exact hda.trans hea.symm

theorem create (h : Listed o) (hc : o.create a = .ok (b, o')) : Listed o' := by
  obtain ⟨hb, rfl⟩ := create_eq_ok hc
  -- the new mailbox had no entry
  have hnew : ∀ d, (d, b) ∉ o.entries := by
    intro d hd
    have hlt := h.known d b hd
    rw [hb] at hlt
    exact Nat.lt_irrefl _ hlt
  refine ⟨once_setEntry h.once hnew, fun d f hd => ?_, fun d hd => ?_⟩
  · have hsize : ({ o with boxes := o.boxes.push { address := a } }.setEntry a b).boxes.size =
        o.boxes.size + 1 := Array.size_push _
    rw [hsize]
    rcases mem_entries_setEntry.mp hd with ⟨hd, -⟩ | ⟨-, rfl⟩
    · exact Nat.lt_succ_of_lt (h.known d f hd)
    · rw [hb]
      exact Nat.lt_succ_self _
  · have hbox := box?_create hc d
    rw [isOwned, hbox]
    rw [hbox] at hd
    split at hd
    · rename_i hdb
      simp [hdb]
    · rename_i hdb
      rw [if_neg hdb]
      exact h.owned d hd

theorem rekey (h : Listed o) (hk : o.rekey b a c = .ok o') : Listed o' := by
  unfold Office.rekey at hk
  split at hk
  · cases hk
  rename_i hat
  split at hk
  · cases hk
    exact h
  split at hk
  · cases hk
  cases hk
  have hkeyed : (a, b) ∈ o.entries := mem_of_lookup (Decidable.not_not.mp hat)
  have herased : ∀ d f, (d, f) ∈ (o.eraseEntry a).entries → (d, f) ∈ o.entries :=
    fun d f hd => (mem_entries_eraseEntry.mp hd).1
  -- the old entry of the mailbox goes
  have hgone : ∀ d, (d, b) ∉ (o.eraseEntry a).entries := by
    intro d hd
    obtain ⟨hd, hne⟩ := mem_entries_eraseEntry.mp hd
    exact hne (h.once d a b hd hkeyed)
  have honce := (h.of_entries herased rfl).once
  refine ⟨once_setEntry honce hgone, fun d f hd => ?_, h.owned⟩
  rcases mem_entries_setEntry.mp hd with ⟨hd, -⟩ | ⟨-, rfl⟩
  · exact h.known d f (herased d f hd)
  · exact h.known a f hkeyed

theorem modifyBox (h : Listed o) {f : Mailbox V → Mailbox V}
    (hf : ∀ box, (f box).owned = box.owned) : Listed (o.modifyBox b f) := by
  refine ⟨h.once, ?_, ?_⟩
  · intro d e hd
    have hsize : (o.modifyBox b f).boxes.size = o.boxes.size := by simp [Office.modifyBox]
    rw [hsize]
    exact h.known d e hd
  · intro d hd
    rw [isOwned, box?_modifyBox]
    rw [box?_modifyBox] at hd
    have hsome : (o.box? d).isSome := by
      split at hd
      · rwa [Option.isSome_map] at hd
      · exact hd
    obtain ⟨box, hbox⟩ := Option.isSome_iff_exists.mp hsome
    have howned := h.owned d hsome
    rw [isOwned, hbox] at howned
    split
    · rw [hbox]
      simpa [hf] using howned
    · rw [hbox]
      exact howned

/-- The mailbox at an address that is taken away has no entry left. -/
theorem revoked (h : Listed o) (hat : o.boxAt a = some b) (c : Address) :
    (c, b) ∉ (o.eraseEntry a).entries := by
  intro hc
  obtain ⟨hcb, hne⟩ := mem_entries_eraseEntry.mp hc
  exact hne (h.once c a b hcb (mem_of_lookup hat))

theorem touched (h : Listed o) (ht : Touched o o') : Listed o' := by
  cases ht with
  | refl => exact h
  | create hc => exact h.create hc
  | eraseEntry a =>
    exact h.of_entries (fun c b hc => (mem_entries_eraseEntry.mp hc).1) rfl
  | rekey hk => exact h.rekey hk
  | modifyBox b hf => exact h.modifyBox hf

end Listed

/-- A mailbox without an entry is not found. -/
theorem resolve_ne_of_detached (hb : ∀ a, (a, b) ∉ o.entries) (a : Address) :
    (o.resolve a).1 ≠ some b := by
  unfold Office.resolve
  split
  · nofun
  · rename_i d hd
    split
    · rintro ⟨⟩
      exact hb a (mem_of_lookup hd)
    · nofun

end Office

/-! ## One access -/

variable {σ : Signature}

theorem Atom.touched {x : Atom σ} (hx : ∀ f, x ≠ .alter f) (w : World σ) :
    Office.Touched w.pool.office (x.effect w).pool.office := by
  cases x with
  | alter f => exact absurd rfl (hx f)
  | createMailbox c =>
    simp only [effect]
    cases hc : w.pool.office.create c with
    | ok made => exact .create hc
    | error e => exact .refl _
  | resolve c =>
    change Office.Touched w.pool.office (w.pool.office.resolve c).2
    unfold Office.resolve
    cases w.pool.office.boxAt c with
    | none => exact .refl _
    | some b =>
      dsimp only
      split
      · exact .refl _
      · exact .eraseEntry _ _
  | put b m => exact .modifyBox _ b fun _ => rfl
  | rekey b s t =>
    simp only [effect]
    cases hk : w.pool.office.rekey b s t with
    | ok o => exact .rekey hk
    | error e => exact .refl _
  | setAddress b c => exact .modifyBox _ b fun _ => rfl
  | revoke r c => exact .eraseEntry _ _
  | takeMail a =>
    simp only [effect, Office.poll]
    cases w.pool.actor? a with
    | none => exact .refl _
    | some y =>
      simp only [Option.bind_some]
      cases w.pool.office.mail y.box with
      | nil => exact .refl _
      | cons m rest => exact .modifyBox _ _ fun _ => rfl
  | claim a =>
    simp only [effect]
    split <;> exact .refl _
  | finish a o =>
    simp only [effect]
    split <;> exact .refl _
  | _ => exact .refl _

/-- An access of this kind leaves all addresses as they are. -/
def Atom.keepsAddresses : Atom σ → Bool
  | .alter _ | .createMailbox _ | .resolve _ | .rekey .. | .setAddress .. | .revoke .. => false
  | _ => true

namespace Atom

variable {x : Atom σ}

theorem entries_effect (hx : x.keepsAddresses) (w : World σ) :
    (x.effect w).pool.office.entries = w.pool.office.entries := by
  cases x with
  | alter | createMailbox | resolve | rekey | setAddress | revoke => cases hx
  | takeMail a =>
    simp only [effect, Office.poll]
    cases w.pool.actor? a with
    | none => rfl
    | some y =>
      simp only [Option.bind_some]
      cases w.pool.office.mail y.box <;> rfl
  | claim a | finish a o =>
    simp only [effect]
    split <;> rfl
  | _ => rfl

/-- Of a mailbox only the letters in it change. -/
theorem box?_effect_of_keepsAddresses {β : Type} (part : Mailbox σ.Value → β)
    (hpart : ∀ (box : Mailbox σ.Value) queue, part { box with queue } = part box)
    (hx : x.keepsAddresses) (w : World σ) (b : BoxRef) :
    ((x.effect w).pool.office.box? b).map part = (w.pool.office.box? b).map part := by
  rw [box?_effect]
  cases x with
  | alter | createMailbox | resolve | rekey | setAddress | revoke => cases hx
  | put c m | takeMail a =>
    dsimp only
    split
    · rw [Option.map_map]
      exact Option.map_congr fun box _ => hpart box _
    · rfl
  | _ => rfl

theorem find?_effect (hx : x.keepsAddresses) (w : World σ) (a : Address) :
    (x.effect w).pool.office.find? a = w.pool.office.find? a := by
  have howned : ∀ b, (x.effect w).pool.office.isOwned b = w.pool.office.isOwned b := by
    intro b
    have hsame := box?_effect_of_keepsAddresses (·.owned) (fun _ _ => rfl) hx w b
    have hany : ∀ box : Option (Mailbox σ.Value), box.any (·.owned) =
        (box.map (·.owned)).any id := by
      rintro (_ | box) <;> rfl
    rw [Office.isOwned, Office.isOwned, hany, hany, hsame]
  rw [Office.find?, Office.find?, Office.boxAt, Office.boxAt, entries_effect hx, funext howned]

theorem addressOf_effect (hx : x.keepsAddresses) (w : World σ) (b : BoxRef) :
    (x.effect w).pool.office.addressOf b = w.pool.office.addressOf b := by
  rw [Office.addressOf, box?_effect_of_keepsAddresses (·.address) (fun _ _ => rfl) hx w b]
  rfl

end Atom

/-- By this access mailbox `b` gets to be registered at address `c`. -/
def Visit.Places (v : Visit σ) (c : Address) (b : BoxRef) : Prop :=
  v.world.pool.office.boxAt c ≠ some b ∧ (v.atom.effect v.world).pool.office.boxAt c = some b

/-! ## Runs -/

variable {config : Config} {company : Company σ} {c c' : Crew σ}

namespace Sane

theorem listed (hc : company.Civil) {env : σ.Env} {ms : List (Move σ)}
    (hplay : (Crew.empty config env).play company ms = some c) : c.world.pool.office.Listed := by
  refine ((Sane.empty config env).induction hc (P := fun c => c.world.pool.office.Listed) ?_
    .empty hplay).2
  rintro c c' - hchange h
  rcases hchange.between_or_visited with ⟨i, t, -, -, -, hw, -⟩ | ⟨i, x, hx, -, hw, -⟩
  · rwa [hw]
  · rw [hw]
    exact h.touched (Atom.touched (Orderly.ne_alter hx) c.world)

theorem detached_play (hc : company.Civil) (h : Sane config c) {b : BoxRef}
    (hb : b < c.world.pool.office.boxes.size) (hnone : ∀ a, (a, b) ∉ c.world.pool.office.entries)
    {ns : List (Move σ)} (hplay : c.play company ns = some c') :
    ∀ a, (a, b) ∉ c'.world.pool.office.entries := by
  refine (h.induction hc (P := fun c => b < c.world.pool.office.boxes.size ∧
    ∀ a, (a, b) ∉ c.world.pool.office.entries) ?_ ⟨hb, hnone⟩ hplay).2.2
  rintro c c' - hchange ⟨hb, hnone⟩
  rcases hchange.between_or_visited with ⟨i, t, -, -, -, hw, -⟩ | ⟨i, x, hx, -, hw, -⟩
  · rw [hw]
    exact ⟨hb, hnone⟩
  · rw [hw]
    have hinherits := (Atom.touched (Orderly.ne_alter hx) c.world).inherits
    exact ⟨Nat.lt_of_lt_of_le hb hinherits.grows, hinherits.detached hb hnone⟩

/-- An actor keeps its mailbox. -/
theorem boxOf_play (hc : company.Civil) (h : Sane config c) {a : ActorRef} {b : BoxRef}
    (hb : c.world.pool.boxOf a = some b) {ns : List (Move σ)}
    (hplay : c.play company ns = some c') : c'.world.pool.boxOf a = some b := by
  refine (h.induction hc (P := fun c => c.world.pool.boxOf a = some b) ?_ hb hplay).2
  rintro d d' - hchange hb
  rcases hchange.between_or_visited with ⟨i, t, -, -, -, hw, -⟩ | ⟨i, x, hx, -, hw, -⟩
  · rwa [hw]
  · rw [hw]
    exact boxOf_effect_of_some hx hb

/-- An address that nobody has is free until a mailbox is placed there, which is another one than
a mailbox that had lost its entry before. -/
theorem vacant_play (hc : company.Civil) (h : Sane config c) {a : Address}
    (hfree : c.world.pool.office.boxAt a = none) {b : BoxRef}
    (hb : b < c.world.pool.office.boxes.size) (hnone : ∀ a, (a, b) ∉ c.world.pool.office.entries)
    {ns : List (Move σ)} (hplay : c.play company ns = some c') :
    ∃ vs, c'.past = c.past ++ vs ∧ (c'.world.pool.office.boxAt a = none ∨
      ∃ v ∈ vs, ∃ d, d ≠ b ∧ v.2.Places a d) := by
  refine (h.induction hc (P := fun d => (b < d.world.pool.office.boxes.size ∧
    ∀ a, (a, b) ∉ d.world.pool.office.entries) ∧ ∃ vs, d.past = c.past ++ vs ∧
      (d.world.pool.office.boxAt a = none ∨ ∃ v ∈ vs, ∃ d, d ≠ b ∧ v.2.Places a d)) ?_
    ⟨⟨hb, hnone⟩, [], (List.append_nil _).symm, .inl hfree⟩ hplay).2.2
  rintro d d' - hchange ⟨⟨hb, hnone⟩, vs, hpast, hstate⟩
  rcases hchange.between_or_visited with ⟨i, t, -, -, -, hw, hp, -⟩ | ⟨i, x, hx, -, hw, hp, -⟩
  · rw [hw]
    exact ⟨⟨hb, hnone⟩, vs, hp.trans hpast, hstate⟩
  · have hinherits := (Atom.touched (Orderly.ne_alter hx) d.world).inherits
    rw [← hw] at hinherits
    have hnone' := hinherits.detached hb hnone
    refine ⟨⟨Nat.lt_of_lt_of_le hb hinherits.grows, hnone'⟩, vs ++ [(i, ⟨d.world, x⟩)],
      by rw [hp, hpast, List.append_assoc], ?_⟩
    rcases hstate with hfree | ⟨v, hv, e, heb, hplaces⟩
    · cases hat : d'.world.pool.office.boxAt a with
      | none => exact .inl rfl
      | some e =>
        have heb : e ≠ b := by
          rintro rfl
          exact hnone' a (Office.mem_of_lookup hat)
        rw [hw] at hat
        refine .inr ⟨_, List.mem_append_right _ (List.mem_singleton_self _), e, heb, ?_, hat⟩
        rw [hfree]
        nofun
    · exact .inr ⟨v, List.mem_append_left _ hv, e, heb, hplaces⟩

end Sane

end ActorSystem
