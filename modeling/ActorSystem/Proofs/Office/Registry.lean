import Mathlib.Data.List.Nodup
import ActorSystem.Proofs.Office.Lookup

/-!
# The registry and the mailboxes

The registry knows mailboxes by address, and each mailbox remembers an address of its own. The
two sides are edited apart from each other, and agree between one order and the next: every
entry is of a live mailbox that believes it is there (`Coherent`). The converse fails, a mailbox
whose address was revoked goes on believing, so that whoever acts on a mailbox must ask the
registry whose entry it is.

* `Coherent.boxAt_eq_some_iff`, `Coherent.resolve_eq`: what is found is what is registered.
* `Coherent.size_eq`: the registry counts the mailboxes that are attached.
* `Coherent.create`, `Coherent.discard`, `Coherent.readdress`: the edits that touch both sides.
* `Inherits`: a mailbox that has lost its entry does not get another one.
-/

namespace ActorSystem.Office

variable {V : Type} {o o' : Office V} {a c : Address} {b d : BoxRef}

/-- Mailbox `b` is alive and registered at `a`. -/
def Attached (o : Office V) (a : Address) (b : BoxRef) : Prop := (a, b) ∈ o.entries ∧ o.isOwned b

def isAttached (o : Office V) (b : BoxRef) : Bool := o.isOwned b && o.entries.any (·.2 == b)

theorem isAttached_iff : o.isAttached b ↔ ∃ a, o.Attached a b := by
  simp [isAttached, Attached, and_comm]

@[simp] theorem mem_entries_eraseEntry :
    (c, d) ∈ (o.eraseEntry a).entries ↔ (c, d) ∈ o.entries ∧ c ≠ a := by
  simp [eraseEntry]

@[simp] theorem mem_entries_setEntry :
    (c, d) ∈ (o.setEntry a b).entries ↔ ((c, d) ∈ o.entries ∧ c ≠ a) ∨ (c = a ∧ d = b) := by
  simp [setEntry]

@[simp] theorem closed_modifyBox (f : Mailbox V → Mailbox V) :
    (o.modifyBox b f).closed = o.closed := rfl

@[simp] theorem closed_eraseEntry : (o.eraseEntry a).closed = o.closed := rfl

theorem eraseEntry_modifyBox (f : Mailbox V → Mailbox V) :
    (o.modifyBox b f).eraseEntry a = (o.eraseEntry a).modifyBox b f := rfl

theorem isOwned_iff : o.isOwned b ↔ ∃ box, o.box? b = some box ∧ box.owned := by
  simp [isOwned, Option.any_eq_true]

theorem addressOf_of_box? {box : Mailbox V} (h : o.box? b = some box) :
    o.addressOf b = box.address := by
  simp [addressOf, h]

theorem mem_of_lookup {es : List (Address × BoxRef)} (h : es.lookup a = some b) : (a, b) ∈ es := by
  induction es with
  | nil => cases h
  | cons e es ih =>
    obtain ⟨c, d⟩ := e
    rw [List.lookup_cons] at h
    split at h
    · rename_i hac
      cases h
      cases eq_of_beq hac
      exact List.mem_cons_self
    · exact List.mem_cons_of_mem _ (ih h)

theorem lookup_of_mem {es : List (Address × BoxRef)} (hn : (es.map Prod.fst).Nodup)
    (h : (a, b) ∈ es) : es.lookup a = some b := by
  induction es with
  | nil => cases h
  | cons e es ih =>
    obtain ⟨c, d⟩ := e
    obtain ⟨hc, hn⟩ := List.nodup_cons.mp hn
    rcases List.mem_cons.mp h with heq | hes
    · cases heq
      simp
    · have hac : a ≠ c := by
        rintro rfl
        exact hc (List.mem_map.mpr ⟨(a, b), hes, rfl⟩)
      have hac' : (a == c) = false := by simp [hac]
      rw [List.lookup_cons, hac']
      exact ih hn hes

theorem resolve_of_find? (h : o.find? a = some b) : o.resolve a = (some b, o) := by
  obtain ⟨hat, howned⟩ := Option.filter_eq_some_iff.mp h
  rw [resolve, hat]
  exact if_pos howned

/-! ## Coherent offices -/

structure Coherent (o : Office V) : Prop where
  keys : (o.entries.map Prod.fst).Nodup
  live : ∀ a b, (a, b) ∈ o.entries → ∃ box, o.box? b = some box ∧ box.owned ∧ box.address = a
  shut : o.closed → o.entries = []

namespace Coherent

variable (h : Coherent o)
include h

theorem isOwned (hab : (a, b) ∈ o.entries) : o.isOwned b := by
  obtain ⟨box, hbox, howned, -⟩ := h.live a b hab
  exact isOwned_iff.mpr ⟨box, hbox, howned⟩

theorem addressOf (hab : (a, b) ∈ o.entries) : o.addressOf b = a := by
  obtain ⟨box, hbox, -, haddress⟩ := h.live a b hab
  rw [addressOf_of_box? hbox, haddress]

theorem attached_iff : o.Attached a b ↔ (a, b) ∈ o.entries :=
  ⟨And.left, fun hab => ⟨hab, h.isOwned hab⟩⟩

theorem address_unique (ha : (a, b) ∈ o.entries) (hc : (c, b) ∈ o.entries) : a = c :=
  (h.addressOf ha).symm.trans (h.addressOf hc)

/-! ### Looking something up -/

theorem boxAt_eq_some_iff : o.boxAt a = some b ↔ (a, b) ∈ o.entries :=
  ⟨mem_of_lookup, lookup_of_mem h.keys⟩

theorem box_unique (hb : (a, b) ∈ o.entries) (hd : (a, d) ∈ o.entries) : b = d := by
  have hboth := (h.boxAt_eq_some_iff.mpr hb).symm.trans (h.boxAt_eq_some_iff.mpr hd)
  exact Option.some.inj hboth

theorem resolve_eq : o.resolve a = (o.boxAt a, o) := by
  unfold resolve
  cases hb : o.boxAt a with
  | none => rfl
  | some b =>
    have howned := h.isOwned (h.boxAt_eq_some_iff.mp hb)
    simp [howned]

/-! ### Counting -/

theorem nodup_boxes : (o.entries.map Prod.snd).Nodup := by
  refine List.Nodup.map_on ?_ (List.Nodup.of_map _ h.keys)
  rintro ⟨a, b⟩ ha ⟨c, d⟩ hc hbd
  cases hbd
  rw [h.address_unique ha hc]

theorem size_eq : o.size = ((List.range o.boxes.size).filter o.isAttached).length := by
  have hperm : (o.entries.map Prod.snd).Perm ((List.range o.boxes.size).filter o.isAttached) := by
    refine (List.perm_ext_iff_of_nodup h.nodup_boxes (List.nodup_range.filter _)).mpr fun b => ?_
    simp only [List.mem_map, Prod.exists, exists_eq_right, List.mem_filter, List.mem_range]
    constructor
    · rintro ⟨a, hab⟩
      have howned := h.isOwned hab
      exact ⟨o.lt_size_of_isOwned howned, isAttached_iff.mpr ⟨a, hab, howned⟩⟩
    · rintro ⟨-, hb⟩
      obtain ⟨a, hab, -⟩ := isAttached_iff.mp hb
      exact ⟨a, hab⟩
  rw [size, ← hperm.length_eq, List.length_map]

/-! ### One side at a time -/

theorem eraseEntry : Coherent (o.eraseEntry a) where
  keys := h.keys.sublist (List.filter_sublist.map _)
  live c d hcd := h.live c d (mem_entries_eraseEntry.mp hcd).1
  shut hc := by simp [Office.eraseEntry, h.shut hc]

/-- An edit that leaves registered mailboxes alive and where they are. -/
theorem modifyBox {f : Mailbox V → Mailbox V}
    (hf : ∀ a box, (a, b) ∈ o.entries → o.box? b = some box →
      (f box).owned = box.owned ∧ (f box).address = box.address) : Coherent (o.modifyBox b f) where
  keys := h.keys
  live c d hcd := by
    obtain ⟨box, hbox, howned, haddress⟩ := h.live c d hcd
    rw [box?_modifyBox]
    split
    · rename_i hbd
      subst hbd
      obtain ⟨hfo, hfa⟩ := hf c box hcd hbox
      exact ⟨f box, by rw [hbox]; rfl, hfo.trans howned, hfa.trans haddress⟩
    · exact ⟨box, hbox, howned, haddress⟩
  shut := h.shut

theorem setEntry (hopen : o.closed = false) {box : Mailbox V} (hbox : o.box? b = some box)
    (howned : box.owned) (haddress : box.address = a) : Coherent (o.setEntry a b) where
  keys := by
    have hkeys := h.eraseEntry (a := a).keys
    simp only [Office.setEntry, List.map_append, List.map_cons, List.map_nil]
    refine List.nodup_append.mpr ⟨hkeys, List.nodup_singleton a, ?_⟩
    rintro c hc e he rfl
    cases List.mem_singleton.mp he
    obtain ⟨⟨k, d⟩, hcd, rfl⟩ := List.mem_map.mp hc
    exact (mem_entries_eraseEntry.mp hcd).2 rfl
  live c d hcd := by
    rcases mem_entries_setEntry.mp hcd with ⟨hcd, -⟩ | ⟨rfl, rfl⟩
    · exact h.live c d hcd
    · exact ⟨box, hbox, howned, haddress⟩
  shut hc := absurd hc (by simpa [Office.setEntry] using hopen)

/-! ### Both sides -/

theorem put (m : Message V) : Coherent (o.put b m) := h.modifyBox fun _ _ _ _ => ⟨rfl, rfl⟩

theorem poll {m : Message V} (hp : o.poll b = some (m, o')) : Coherent o' := by
  unfold Office.poll at hp
  split at hp
  · cases hp
  · cases hp
    exact h.modifyBox fun _ _ _ _ => ⟨rfl, rfl⟩

theorem resolve : Coherent (o.resolve a).2 := by rwa [h.resolve_eq]

theorem revoke : Coherent (o.revoke a).2 := h.eraseEntry

omit h in
theorem close : Coherent o.close where
  keys := List.nodup_nil
  live _ _ hab := nomatch hab
  shut _ := rfl

/-- A new mailbox is entered for whatever was at its address, and that was nothing. -/
theorem create (hopen : o.closed = false) (hc : o.create a = .ok (b, o')) : Coherent o' := by
  obtain ⟨rfl, rfl⟩ := create_eq_ok hc
  have hpush : Coherent { o with boxes := o.boxes.push { address := a } } := by
    refine ⟨h.keys, fun c d hcd => ?_, h.shut⟩
    obtain ⟨box, hbox, hrest⟩ := h.live c d hcd
    have hlt := o.lt_size_of_isOwned (h.isOwned hcd)
    refine ⟨box, ?_, hrest⟩
    rw [← hbox, box?, box?, Array.getElem?_push, if_neg (Nat.ne_of_lt hlt)]
  have hnew : Office.box? { o with boxes := o.boxes.push { address := a } } o.boxes.size =
      some { address := a } := by simp [box?]
  exact hpush.setEntry hopen hnew rfl rfl

/-- A mailbox that is registered is registered where it believes it is. -/
theorem boxAt_addressOf (hb : ∃ a, (a, b) ∈ o.entries) : o.boxAt (o.addressOf b) = some b := by
  obtain ⟨a, hab⟩ := hb
  rw [h.addressOf hab]
  exact h.boxAt_eq_some_iff.mpr hab

theorem discard : Coherent (o.discard b) := by
  unfold Office.discard
  dsimp only
  by_cases hb : ∃ a, (a, b) ∈ o.entries
  · have hopen : o.closed = false := by
      obtain ⟨a, hab⟩ := hb
      refine Bool.eq_false_iff.mpr fun hc => ?_
      rw [h.shut hc] at hab
      cases hab
    have hat : (o.modifyBox b fun box => { box with queue := [], owned := false }).boxAt
        (o.addressOf b) = some b := h.boxAt_addressOf hb
    rw [if_pos (by simp [hat, hopen]), eraseEntry_modifyBox]
    refine h.eraseEntry (a := o.addressOf b).modifyBox fun c box hcb _ => ?_
    obtain ⟨hcb, hne⟩ := mem_entries_eraseEntry.mp hcb
    exact absurd (h.addressOf hcb).symm hne
  · have hedit : Coherent (o.modifyBox b fun box => { box with queue := [], owned := false }) :=
      h.modifyBox fun a _ hab _ => absurd ⟨a, hab⟩ hb
    split
    · exact hedit.eraseEntry
    · exact hedit

theorem readdress (hr : o.readdress b c = .ok o') : Coherent o' := by
  unfold Office.readdress at hr
  dsimp only at hr
  split at hr
  · cases hr
  rename_i hopen
  cases hk : o.rekey b (o.addressOf b) c with
  | error e =>
    rw [hk] at hr
    cases hr
  | ok k =>
    rw [hk] at hr
    cases hr
    unfold Office.rekey at hk
    split at hk
    · cases hk
    rename_i hat
    have hab := h.boxAt_eq_some_iff.mp (Decidable.not_not.mp hat)
    obtain ⟨box, hbox, howned, haddress⟩ := h.live _ b hab
    split at hk
    · rename_i hsame
      cases hk
      refine h.modifyBox fun d box' hdb hbox' => ⟨rfl, ?_⟩
      rw [← hsame, addressOf_of_box? hbox']
    split at hk
    · cases hk
    cases hk
    -- the mailbox takes its new address while it is not registered anywhere
    have hmoved : Coherent ((o.eraseEntry (o.addressOf b)).modifyBox b fun box =>
        { box with address := c }) := by
      refine h.eraseEntry.modifyBox fun d _ hdb _ => ?_
      obtain ⟨hdb, hne⟩ := mem_entries_eraseEntry.mp hdb
      exact absurd (h.addressOf hdb).symm hne
    have hbox' : ((o.eraseEntry (o.addressOf b)).modifyBox b fun box =>
        { box with address := c }).box? b = some { box with address := c } := by
      rw [box?_modifyBox, if_pos rfl]
      exact congrArg (Option.map _) hbox
    exact hmoved.setEntry (Bool.eq_false_iff.mpr hopen) hbox' howned rfl

/-! ### Mailboxes that are not registered -/

variable (hb : ∀ a, (a, b) ∉ o.entries)
include hb

theorem entries_discard_of_detached : (o.discard b).entries = o.entries := by
  unfold Office.discard
  dsimp only
  split
  · rename_i hat
    simp only [Bool.and_eq_true, beq_iff_eq] at hat
    exact absurd (h.boxAt_eq_some_iff.mp hat.2) (hb _)
  · rfl

theorem readdress_of_detached : o.readdress b c = .error (.addressNotFound (o.addressOf b)) := by
  have hat : o.boxAt (o.addressOf b) ≠ some b := fun hat => hb _ (h.boxAt_eq_some_iff.mp hat)
  unfold Office.readdress
  dsimp only
  split
  · rfl
  · rw [Office.rekey, if_pos hat]
    rfl

end Coherent

/-! ## What becomes of an entry -/

/-- `o'` comes after `o`: its entries are of mailboxes that had one before, or did not exist. -/
structure Inherits (o o' : Office V) : Prop where
  grows : o.boxes.size ≤ o'.boxes.size
  entered : ∀ a b, (a, b) ∈ o'.entries → (∃ c, (c, b) ∈ o.entries) ∨ o.boxes.size ≤ b

namespace Inherits

theorem refl (o : Office V) : Inherits o o := ⟨Nat.le_refl _, fun a _ hab => .inl ⟨a, hab⟩⟩

theorem trans {p : Office V} (h : Inherits o o') (h' : Inherits o' p) : Inherits o p where
  grows := Nat.le_trans h.grows h'.grows
  entered a b hab := by
    rcases h'.entered a b hab with ⟨c, hcb⟩ | hb
    · exact h.entered c b hcb
    · exact .inr (Nat.le_trans h.grows hb)

theorem of_entries (hsize : o.boxes.size ≤ o'.boxes.size)
    (h : ∀ a b, (a, b) ∈ o'.entries → (a, b) ∈ o.entries) : Inherits o o' :=
  ⟨hsize, fun a b hab => .inl ⟨a, h a b hab⟩⟩

theorem modifyBox (o : Office V) (b : BoxRef) (f : Mailbox V → Mailbox V) :
    Inherits o (o.modifyBox b f) :=
  of_entries (by simp [Office.modifyBox]) fun _ _ => id

theorem eraseEntry (o : Office V) (a : Address) : Inherits o (o.eraseEntry a) :=
  of_entries (Nat.le_refl _) fun _ _ hcd => (mem_entries_eraseEntry.mp hcd).1

theorem close (o : Office V) : Inherits o o.close := of_entries (Nat.le_refl _) nofun

theorem resolve (o : Office V) (a : Address) : Inherits o (o.resolve a).2 := by
  unfold Office.resolve
  split
  · exact refl o
  · split
    · exact refl o
    · exact eraseEntry o a

theorem poll {m : Message V} (h : o.poll b = some (m, o')) : Inherits o o' := by
  unfold Office.poll at h
  split at h
  · cases h
  · cases h
    exact modifyBox o b _

theorem create (h : o.create a = .ok (b, o')) : Inherits o o' := by
  obtain ⟨rfl, rfl⟩ := create_eq_ok h
  refine ⟨by simp [Office.setEntry], fun c d hcd => ?_⟩
  rcases mem_entries_setEntry.mp hcd with ⟨hcd, -⟩ | ⟨-, rfl⟩
  · exact .inl ⟨c, hcd⟩
  · exact .inr (Nat.le_refl _)

theorem rekey (h : o.rekey b a c = .ok o') : Inherits o o' := by
  unfold Office.rekey at h
  split at h
  · cases h
  rename_i hat
  split at h
  · cases h
    exact refl o
  split at h
  · cases h
  cases h
  refine ⟨Nat.le_refl _, fun d e hde => ?_⟩
  rcases mem_entries_setEntry.mp hde with ⟨hde, -⟩ | ⟨-, rfl⟩
  · exact .inl ⟨d, (mem_entries_eraseEntry.mp hde).1⟩
  · exact .inl ⟨a, mem_of_lookup (Decidable.not_not.mp hat)⟩

theorem readdress (h : o.readdress b c = .ok o') : Inherits o o' := by
  unfold Office.readdress at h
  dsimp only at h
  split at h
  · cases h
  cases hk : o.rekey b (o.addressOf b) c with
  | error e =>
    rw [hk] at h
    cases h
  | ok k =>
    rw [hk] at h
    cases h
    exact (rekey hk).trans (modifyBox k b _)

theorem discard (o : Office V) (b : BoxRef) : Inherits o (o.discard b) := by
  have hedit := modifyBox o b fun box => { box with queue := [], owned := false }
  unfold Office.discard
  dsimp only
  split
  · exact hedit.trans (eraseEntry _ _)
  · exact hedit

/-- A mailbox that has lost its entry does not get another one. -/
theorem detached (h : Inherits o o') (hlt : b < o.boxes.size) (hb : ∀ a, (a, b) ∉ o.entries) :
    ∀ a, (a, b) ∉ o'.entries := by
  intro a hab
  rcases h.entered a b hab with ⟨c, hcb⟩ | hle
  · exact hb c hcb
  · exact absurd hlt (Nat.not_lt_of_le hle)

end Inherits

end ActorSystem.Office
