import ActorSystem.Proofs.Act.Leads
import ActorSystem.Proofs.Pool.Lookup

/-!
# Sound pools

When nobody but the pool edits the registry of its post office, an actor's mailbox stays
registered at the address that goes with the actor's ID until someone revokes that address.
`Sound` is the invariant behind this, and here is what keeps it.

* `Sound.quiet`: most accesses have no part in it.
* `Sound.revoked`: whoever has the ID of a revoked address is cut off from then on.
* `Sound.moved`: an actor that is not cut off can take another ID.
-/

namespace ActorSystem

variable {σ : Signature}

/-! ## Being cut off -/

/-- For whom and what an access revokes, if it revokes anything. -/
def Atom.revocation : Atom σ → Option (Revoker × Address)
  | revoke revoker c => some (revoker, c)
  | _ => none

/-- At this access `revoker` takes away the address that goes with the ID of actor `a`. -/
def Visit.takes (v : Visit σ) (revoker : Revoker) (a : ActorRef) : Bool :=
  (v.world.pool.idOf a).any fun id => v.atom.revocation = some (revoker, id.address)

theorem Visit.takes_iff {v : Visit σ} {revoker : Revoker} {a : ActorRef} :
    v.takes revoker a ↔
      ∃ id, v.world.pool.idOf a = some id ∧ v.atom.revocation = some (revoker, id.address) := by
  simp only [Visit.takes, Option.any_eq_true, decide_eq_true_eq]

theorem Visit.not_takes {v : Visit σ} (hv : v.atom.revocation = none) (r : Revoker)
    (a : ActorRef) : ¬v.takes r a := by
  rw [takes_iff, hv]
  simp

/-- Somebody called for the address of `a`'s ID to be revoked. -/
def Dismissed (h : List (Visit σ)) (a : ActorRef) : Prop := ∃ v ∈ h, v.takes .caller a

/-- Another actor stopped and took the address of `a`'s ID with it. -/
def Evicted (h : List (Visit σ)) (a : ActorRef) : Prop := ∃ v ∈ h, ∃ b ≠ a, v.takes (.actor b) a

def CutOff (h : List (Visit σ)) (a : ActorRef) : Prop := ∃ v ∈ h, ∃ r, v.takes r a

theorem cutOff_append (h vs : List (Visit σ)) (a : ActorRef) :
    CutOff (h ++ vs) a ↔ CutOff h a ∨ CutOff vs a := by
  simp only [CutOff, List.mem_append, or_and_right, exists_or]

theorem cutOff_snoc (h : List (Visit σ)) (v : Visit σ) (a : ActorRef) :
    CutOff (h ++ [v]) a ↔ CutOff h a ∨ ∃ r, v.takes r a := by
  rw [cutOff_append]
  simp only [CutOff, List.mem_singleton, exists_eq_left]

theorem cutOff_snoc_of_calm {h : List (Visit σ)} {v : Visit σ} (hv : v.atom.revocation = none)
    (a : ActorRef) : CutOff (h ++ [v]) a ↔ CutOff h a := by
  rw [cutOff_snoc, or_iff_left]
  rintro ⟨r, ht⟩
  exact Visit.not_takes hv r a ht

/-- Only a revocation cuts anybody off. -/
theorem not_cutOff_of_calm {vs : List (Visit σ)} (h : ∀ v ∈ vs, v.atom.revocation = none)
    (a : ActorRef) : ¬CutOff vs a := by
  rintro ⟨v, hv, r, ht⟩
  exact Visit.not_takes (h v hv) r a ht

/-! ## Accesses without a part in it -/

/-- The access makes, moves and revokes no mailbox; it enrolls, renumbers and stops no actor,
and ends no drain. -/
def Atom.quiet : Atom σ → Bool
  | alter _ | createMailbox _ | rekey .. | setAddress .. | revoke .. => false
  | setId .. | sicken _ | dropId _ | finish .. | enroll _ => false
  | _ => true

namespace Atom

variable {x : Atom σ} {w : World σ}

/-- Apart from `resolve`, which clears away, no quiet access touches the registry. -/
theorem registry_quiet (hx : x.quiet) (hr : ∀ c, x ≠ resolve c) :
    (x.effect w).pool.office.entries = w.pool.office.entries ∧
      (x.effect w).pool.office.closed = w.pool.office.closed := by
  cases x with
  | resolve c => exact absurd rfl (hr c)
  | alter | createMailbox | rekey | setAddress | revoke => cases hx
  | setId | sicken | dropId | finish | enroll => cases hx
  | claim a =>
    simp only [effect]
    split <;> exact ⟨rfl, rfl⟩
  | takeMail a =>
    simp only [effect, Office.poll]
    cases w.pool.actor? a with
    | none => exact ⟨rfl, rfl⟩
    | some y =>
      simp only [Option.bind_some]
      cases w.pool.office.mail y.box <;> exact ⟨rfl, rfl⟩
  | _ => exact ⟨rfl, rfl⟩

/-- Quiet accesses leave a mailbox to its owner and where it believes it is. -/
theorem mailbox_quiet (hx : x.quiet) (b : BoxRef) :
    (x.effect w).pool.office.isOwned b = w.pool.office.isOwned b ∧
      (x.effect w).pool.office.addressOf b = w.pool.office.addressOf b := by
  simp only [Office.isOwned, Office.addressOf, box?_effect]
  cases x with
  | alter | createMailbox | rekey | setAddress | revoke => cases hx
  | setId | sicken | dropId | finish | enroll => cases hx
  | put | takeMail =>
    dsimp only
    split <;> cases w.pool.office.box? b <;> exact ⟨rfl, rfl⟩
  | _ => exact ⟨rfl, rfl⟩

end Atom

/-- The outside makes quiet accesses only. -/
def Company.Discreet (company : Company σ) : Prop := ∀ c, (company.outside c).All (·.quiet)

/-! ## The invariant -/

/-- What holds between the acts of a pool, and of `who` while it is being drained. -/
structure Sound (who : Option ActorRef) (h : List (Visit σ)) (w : World σ) : Prop where
  opened : w.pool.office.closed = false
  live : ∀ c b, w.pool.office.boxAt c = some b → w.pool.office.isOwned b
  home : ∀ a b, w.pool.boxOf a = some b → w.pool.office.isOwned b
  apart : ∀ a c b, w.pool.boxOf a = some b → w.pool.boxOf c = some b → a = c
  named : ∀ a b id, w.pool.boxOf a = some b → w.pool.idOf a = some id →
    w.pool.office.addressOf b = id.address
  attached : ∀ a b id, w.pool.boxOf a = some b → w.pool.idOf a = some id →
    (w.pool.office.boxAt id.address = some b ↔ ¬CutOff h a)
  /-- Only a stopped actor has lost its ID. -/
  stopped : ∀ a, (w.pool.boxOf a).isSome → w.pool.idOf a = none → w.pool.phaseOf a = some .sick
  enlisted : ∀ a ∈ w.pool.table, (w.pool.boxOf a).isSome
  grown : ∀ v ∈ h, v.world.pool.actors.size ≤ w.pool.actors.size
  /-- A stopped actor takes no address from itself. -/
  foreign : ∀ v ∈ h, ∀ a, ¬v.takes (.actor a) a
  awake : ∀ a, who = some a → (w.pool.idOf a).isSome

namespace Sound

variable {who : Option ActorRef} {h : List (Visit σ)} {w : World σ}

theorem cutOff_iff (hs : Sound who h w) (a : ActorRef) :
    CutOff h a ↔ Dismissed h a ∨ Evicted h a := by
  constructor
  · rintro ⟨v, hv, r, ht⟩
    cases r with
    | caller => exact .inl ⟨v, hv, ht⟩
    | actor b =>
      refine .inr ⟨v, hv, b, ?_, ht⟩
      rintro rfl
      exact hs.foreign v hv b ht
  · rintro (⟨v, hv, ht⟩ | ⟨v, hv, b, -, ht⟩)
    · exact ⟨v, hv, _, ht⟩
    · exact ⟨v, hv, _, ht⟩

/-- An actor that is not registered yet has not been cut off. -/
theorem not_cutOff (hs : Sound who h w) {a : ActorRef} (ha : w.pool.actors.size ≤ a) :
    ¬CutOff h a := by
  rintro ⟨v, hv, r, ht⟩
  obtain ⟨id, hid, -⟩ := Visit.takes_iff.mp ht
  rw [Pool.idOf_eq_none_of_size_le (Nat.le_trans (hs.grown v hv) ha)] at hid
  cases hid

theorem registered (hs : Sound who h w) {a : ActorRef} (ha : who = some a) :
    (w.pool.phaseOf a).isSome := by
  obtain ⟨id, hid⟩ := Option.isSome_iff_exists.mp (hs.awake a ha)
  simp only [Pool.idOf, Option.bind_eq_some_iff] at hid
  obtain ⟨x, hx, -⟩ := hid
  simp [Pool.phaseOf, hx]

theorem grown_snoc (hs : Sound who h w) (x : Atom σ) {w' : World σ}
    (hw : w.pool.actors.size ≤ w'.pool.actors.size) :
    ∀ v ∈ h ++ [⟨w, x⟩], v.world.pool.actors.size ≤ w'.pool.actors.size := by
  intro v hv
  rcases List.mem_append.mp hv with hv | hv
  · exact Nat.le_trans (hs.grown v hv) hw
  · obtain rfl := List.mem_singleton.mp hv
    exact hw

theorem foreign_snoc (hs : Sound who h w) {x : Atom σ}
    (hx : ∀ a, ¬(⟨w, x⟩ : Visit σ).takes (.actor a) a) :
    ∀ v ∈ h ++ [⟨w, x⟩], ∀ a, ¬v.takes (.actor a) a := by
  intro v hv
  rcases List.mem_append.mp hv with hv | hv
  · exact hs.foreign v hv
  · obtain rfl := List.mem_singleton.mp hv
    exact hx

/-- The invariant does not see more than this of a world. -/
theorem alike (hs : Sound who h w) {x : Atom σ} {w' : World σ} (hx : x.revocation = none)
    (hclosed : w'.pool.office.closed = w.pool.office.closed)
    (hboxAt : ∀ c, w'.pool.office.boxAt c = w.pool.office.boxAt c)
    (howned : ∀ b, w'.pool.office.isOwned b = w.pool.office.isOwned b)
    (haddress : ∀ b, w'.pool.office.addressOf b = w.pool.office.addressOf b)
    (hboxOf : ∀ a, w'.pool.boxOf a = w.pool.boxOf a)
    (hidOf : ∀ a, w'.pool.idOf a = w.pool.idOf a)
    (hsick : ∀ a, w.pool.idOf a = none → w.pool.phaseOf a = some .sick →
      w'.pool.phaseOf a = some .sick)
    (htable : ∀ a ∈ w'.pool.table, a ∈ w.pool.table)
    (hsize : w'.pool.actors.size = w.pool.actors.size) :
    Sound who (h ++ [⟨w, x⟩]) w' where
  opened := by rw [hclosed, hs.opened]
  live c b hb := by
    rw [hboxAt] at hb
    rw [howned]
    exact hs.live c b hb
  home a b hb := by
    rw [hboxOf] at hb
    rw [howned]
    exact hs.home a b hb
  apart a c b ha hc := by
    rw [hboxOf] at ha hc
    exact hs.apart a c b ha hc
  named a b id hb hid := by
    rw [hboxOf] at hb
    rw [hidOf] at hid
    rw [haddress]
    exact hs.named a b id hb hid
  attached a b id hb hid := by
    rw [hboxOf] at hb
    rw [hidOf] at hid
    rw [hboxAt, hs.attached a b id hb hid, cutOff_snoc_of_calm hx]
  stopped a ha hid := by
    rw [hboxOf] at ha
    rw [hidOf] at hid
    exact hsick a hid (hs.stopped a ha hid)
  enlisted a ha := by
    rw [hboxOf]
    exact hs.enlisted a (htable a ha)
  grown := hs.grown_snoc x (Nat.le_of_eq hsize.symm)
  foreign := hs.foreign_snoc fun a => Visit.not_takes hx _ a
  awake a ha := by
    rw [hidOf]
    exact hs.awake a ha

theorem resolve_eq (hs : Sound who h w) (c : Address) :
    (Atom.resolve c).effect w = w := by
  have ho : (w.pool.office.resolve c).2 = w.pool.office := by
    unfold Office.resolve
    cases hb : w.pool.office.boxAt c with
    | none => rfl
    | some b => simp [hs.live c b hb]
  simp only [Atom.effect, World.modifyOffice, World.modifyPool, ho]

theorem quiet (hs : Sound who h w) {x : Atom σ} (hx : x.quiet) :
    Sound who (h ++ [⟨w, x⟩]) (x.effect w) := by
  have hcalm : x.revocation = none := by cases x <;> first | rfl | cases hx
  by_cases hr : ∃ c, x = .resolve c
  · obtain ⟨c, rfl⟩ := hr
    rw [hs.resolve_eq c]
    exact hs.alike hcalm rfl (fun _ => rfl) (fun _ => rfl) (fun _ => rfl) (fun _ => rfl)
      (fun _ => rfl) (fun _ _ hp => hp) (fun _ ha => ha) rfl
  have hreg := Atom.registry_quiet (w := w) hx fun c hc => hr ⟨c, hc⟩
  have hbox := Atom.mailbox_quiet (w := w) hx
  refine hs.alike hcalm hreg.2 (fun c => by simp only [Office.boxAt, hreg.1])
    (fun b => (hbox b).1) (fun b => (hbox b).2) ?_ ?_ ?_ ?_ ?_
  · intro a
    rw [Atom.boxOf_effect]
    cases x <;> first | rfl | cases hx
  · intro a
    rw [Atom.idOf_effect]
    cases x <;> first | rfl | cases hx
  · intro a _ hp
    rw [Atom.phaseOf_effect]
    cases x with
    | claim c =>
      refine (if_neg ?_).trans hp
      rintro ⟨rfl, hi⟩
      rw [hp] at hi
      cases hi
    | alter | sicken | finish | enroll => cases hx
    | _ => exact hp
  · intro a ha
    rw [Atom.table_effect] at ha
    cases x with
    | eraseSick => exact (List.mem_filter.mp ha).1
    | erase c => exact List.mem_of_mem_erase ha
    | alter | enroll => cases hx
    | _ => exact ha
  · rw [Atom.size_effect]
    cases x <;> first | rfl | cases hx

/-! ## Stopping and letting go -/

theorem sickened (hs : Sound who h w) (a : ActorRef) :
    Sound who (h ++ [⟨w, .sicken a⟩]) ((Atom.sicken a).effect w) := by
  refine hs.alike rfl rfl (fun _ => rfl) (fun _ => rfl) (fun _ => rfl)
    (fun c => Atom.boxOf_effect (.sicken a) w c) (fun c => Atom.idOf_effect (.sicken a) w c)
    ?_ (fun _ hc => hc) (Atom.size_effect (.sicken a) w)
  intro c _ hp
  rw [Atom.phaseOf_effect, hp]
  exact ite_self _

theorem dropped (hs : Sound who h w) {a : ActorRef} (ha : w.pool.phaseOf a = some .sick) :
    Sound none (h ++ [⟨w, .dropId a⟩]) ((Atom.dropId a).effect w) := by
  have hcalm : (Atom.dropId a : Atom σ).revocation = none := rfl
  have hid : ∀ c id, ((Atom.dropId a).effect w).pool.idOf c = some id →
      w.pool.idOf c = some id := by
    intro c id hc
    rw [Atom.idOf_effect] at hc
    dsimp only at hc
    split at hc
    · cases hc
    · exact hc
  have hbox := fun c => Atom.boxOf_effect (.dropId a) w c
  refine ⟨hs.opened, hs.live, ?_, ?_, ?_, ?_, ?_, ?_, hs.grown_snoc _ ?_,
    hs.foreign_snoc fun c => Visit.not_takes hcalm _ c, fun _ hc => by cases hc⟩
  · intro c b hb
    exact hs.home c b ((hbox c).symm.trans hb)
  · intro c d b hc hd
    exact hs.apart c d b ((hbox c).symm.trans hc) ((hbox d).symm.trans hd)
  · intro c b id hb hc
    exact hs.named c b id ((hbox c).symm.trans hb) (hid c id hc)
  · intro c b id hb hc
    rw [cutOff_snoc_of_calm hcalm]
    exact hs.attached c b id ((hbox c).symm.trans hb) (hid c id hc)
  · intro c hc hn
    rw [hbox] at hc
    rw [Atom.idOf_effect] at hn
    rw [Atom.phaseOf_effect]
    dsimp only at hn hc ⊢
    split at hn
    · rename_i hac
      rwa [← hac]
    · exact hs.stopped c hc hn
  · intro c hc
    rw [hbox]
    exact hs.enlisted c hc
  · exact Nat.le_of_eq (Atom.size_effect (.dropId a) w).symm

/-- Whoever had the ID of this address is cut off by this. -/
theorem revoked (hs : Sound who h w) {r : Revoker} (c : Address)
    (hr : ∀ a, r = .actor a → w.pool.idOf a = none) :
    Sound who (h ++ [⟨w, .revoke r c⟩]) ((Atom.revoke r c).effect w) := by
  have hboxAt : ∀ d, ((Atom.revoke r c).effect w).pool.office.boxAt d =
      if d = c then none else w.pool.office.boxAt d :=
    fun d => w.pool.office.boxAt_eraseEntry c d
  refine ⟨hs.opened, ?_, hs.home, hs.apart, hs.named, ?_, hs.stopped, hs.enlisted,
    hs.grown_snoc _ (Nat.le_refl _), hs.foreign_snoc ?_, hs.awake⟩
  · intro d b hb
    rw [hboxAt] at hb
    split at hb
    · cases hb
    · exact hs.live d b hb
  · intro a b id hb hid
    change w.pool.boxOf a = some b at hb
    change w.pool.idOf a = some id at hid
    rw [hboxAt, cutOff_snoc]
    by_cases hc : id.address = c
    · have ht : (⟨w, .revoke r c⟩ : Visit σ).takes r a :=
        Visit.takes_iff.mpr ⟨id, hid, by rw [hc]; rfl⟩
      rw [if_pos hc]
      exact iff_of_false (by simp) (not_not_intro (.inr ⟨r, ht⟩))
    · have ht : ¬∃ r', (⟨w, .revoke r c⟩ : Visit σ).takes r' a := by
        rintro ⟨r', ht⟩
        obtain ⟨id', hid', hx⟩ := Visit.takes_iff.mp ht
        cases hid.symm.trans hid'
        cases hx
        exact hc rfl
      rw [if_neg hc, or_iff_left ht]
      exact hs.attached a b id hb hid
  · intro a ht
    obtain ⟨id, hid, hx⟩ := Visit.takes_iff.mp ht
    cases hx
    rw [hr a rfl] at hid
    cases hid

theorem finished (hs : Sound who h w) {a : ActorRef} {o : Outcome}
    (ho : o ≠ .poisoned → (w.pool.idOf a).isSome) :
    Sound none (h ++ [⟨w, .finish a o⟩]) ((Atom.finish a o).effect w) := by
  have hreg : ((Atom.finish a o).effect w).pool.office = w.pool.office := by
    simp only [Atom.effect]
    split <;> rfl
  have hs' : Sound none h w := { hs with awake := fun _ hc => by cases hc }
  refine hs'.alike rfl (by rw [hreg]) (fun _ => by rw [hreg]) (fun _ => by rw [hreg])
    (fun _ => by rw [hreg]) (fun c => Atom.boxOf_effect (.finish a o) w c)
    (fun c => Atom.idOf_effect (.finish a o) w c) ?_ ?_ (Atom.size_effect (.finish a o) w)
  · intro c hid hp
    rw [Atom.phaseOf_effect]
    refine (if_neg ?_).trans hp
    rintro ⟨rfl, hne⟩
    have := ho hne
    rw [hid] at this
    cases this
  · intro c hc
    rwa [Atom.table_effect] at hc

/-! ## Registering -/

end Sound

/-- A mailbox at address `c` that no actor has yet. -/
structure Vacant (b : BoxRef) (c : Address) (p : Pool σ) : Prop where
  owned : p.office.isOwned b
  address : p.office.addressOf b = c
  boxAt : p.office.boxAt c = some b
  fresh : ∀ a, p.boxOf a ≠ some b

namespace Sound

variable {who : Option ActorRef} {h : List (Visit σ)} {w : World σ}

theorem free_of_not_contains (hs : Sound who h w) {c : Address}
    (hc : w.pool.office.contains c = false) : w.pool.office.boxAt c = none := by
  cases hb : w.pool.office.boxAt c with
  | none => rfl
  | some b => simp [Office.contains, Office.find?, hb, hs.live c b hb] at hc

theorem created (hs : Sound who h w) {c : Address} {b : BoxRef} {o : Office σ.Value}
    (hc : w.pool.office.create c = .ok (b, o)) :
    Sound who (h ++ [⟨w, .createMailbox c⟩]) ((Atom.createMailbox c).effect w) ∧
      Vacant b c ((Atom.createMailbox c).effect w).pool := by
  have hcalm : (Atom.createMailbox c : Atom σ).revocation = none := rfl
  have hw : (Atom.createMailbox c).effect w = w.modifyOffice fun _ => o := by
    simp only [Atom.effect, hc]
  have hfree : w.pool.office.boxAt c = none :=
    hs.free_of_not_contains (Office.not_contains_of_create hc)
  have hboxAt := Office.boxAt_create hc
  have howned : ∀ d, w.pool.office.isOwned d → o.isOwned d := by
    intro d hd
    rw [Office.isOwned, (Office.isOwned_create hc hd).2]
    exact hd
  have hnew : o.box? b = some { address := c } := by
    rw [Office.box?_create hc, if_pos rfl]
  have hfresh : ∀ a, w.pool.boxOf a ≠ some b := by
    intro a ha
    exact (Office.isOwned_create hc (hs.home a b ha)).1 rfl
  rw [hw]
  refine ⟨⟨?_, ?_, ?_, hs.apart, ?_, ?_, hs.stopped, hs.enlisted,
    hs.grown_snoc _ (Nat.le_refl _), hs.foreign_snoc fun a => Visit.not_takes hcalm _ a, hs.awake⟩,
    ⟨?_, ?_, ?_, hfresh⟩⟩
  · rw [← hs.opened, (Office.create_eq_ok hc).2]
    rfl
  · intro d e he
    change o.boxAt d = some e at he
    change o.isOwned e
    rw [hboxAt] at he
    split at he
    · cases he
      simp [Office.isOwned, hnew]
    · exact howned e (hs.live d e he)
  · intro a d ha
    exact howned d (hs.home a d ha)
  · intro a d id ha hid
    change o.addressOf d = id.address
    rw [Office.addressOf, (Office.isOwned_create hc (hs.home a d ha)).2]
    exact hs.named a d id ha hid
  · intro a d id ha hid
    change o.boxAt id.address = some d ↔ _
    rw [cutOff_snoc_of_calm hcalm, ← hs.attached a d id ha hid, hboxAt]
    split
    · rename_i hd
      refine iff_of_false ?_ ?_
      · rintro ⟨⟩
        exact hfresh a ha
      · rw [hd, hfree]
        simp
    · exact Iff.rfl
  · change o.isOwned b
    simp [Office.isOwned, hnew]
  · change o.addressOf b = c
    simp [Office.addressOf, hnew]
  · change o.boxAt c = some b
    rw [hboxAt, if_pos rfl]

/-- Nothing comes of it when the address is taken. -/
theorem refused (hs : Sound who h w) {c : Address} {e : Error}
    (hc : w.pool.office.create c = .error e) :
    Sound who (h ++ [⟨w, .createMailbox c⟩]) ((Atom.createMailbox c).effect w) := by
  have hkept : (Atom.createMailbox c).effect w = w := by simp only [Atom.effect, hc]
  rw [hkept]
  exact hs.alike rfl rfl (fun _ => rfl) (fun _ => rfl) (fun _ => rfl) (fun _ => rfl)
    (fun _ => rfl) (fun _ _ hp => hp) (fun _ ha => ha) rfl

theorem enrolled (hs : Sound who h w) {x : Actor σ} {id : ActorId} (hx : x.id = some id)
    (hv : Vacant x.box id.address w.pool) :
    Sound who (h ++ [⟨w, .enroll x⟩]) ((Atom.enroll x).effect w) := by
  have hcalm : (Atom.enroll x : Atom σ).revocation = none := rfl
  have hbox : ∀ a, ((Atom.enroll x).effect w).pool.boxOf a =
      if a = w.pool.actors.size then some x.box else w.pool.boxOf a :=
    Atom.boxOf_effect (.enroll x) w
  have hid : ∀ a, ((Atom.enroll x).effect w).pool.idOf a =
      if a = w.pool.actors.size then some id else w.pool.idOf a := by
    intro a
    rw [← hx]
    exact Atom.idOf_effect (.enroll x) w a
  have hold : ∀ a, (w.pool.boxOf a).isSome → a ≠ w.pool.actors.size := by
    intro a ha
    exact Nat.ne_of_lt (Pool.boxOf_isSome_iff.mp ha)
  refine ⟨hs.opened, hs.live, ?_, ?_, ?_, ?_, ?_, ?_, hs.grown_snoc _ ?_,
    hs.foreign_snoc fun a => Visit.not_takes hcalm _ a, ?_⟩
  · intro a b ha
    rcases Atom.boxOf_enroll ha with ⟨-, rfl⟩ | ⟨-, ha⟩
    · exact hv.owned
    · exact hs.home a b ha
  · exact fun a c b => Atom.apart_enroll hs.apart hv.fresh
  · exact fun a b i => Atom.named_enroll hx hs.named hv.address
  · intro a b i ha hi
    rw [hid] at hi
    rw [cutOff_snoc_of_calm hcalm]
    rcases Atom.boxOf_enroll ha with ⟨rfl, rfl⟩ | ⟨hne, ha⟩
    · rw [if_pos rfl] at hi
      cases hi
      exact iff_of_true hv.boxAt (hs.not_cutOff (Nat.le_refl _))
    · rw [if_neg hne] at hi
      exact hs.attached a b i ha hi
  · intro a ha hn
    rw [hid] at hn
    split at hn
    · cases hn
    · rename_i hne
      rw [hbox, if_neg hne] at ha
      rw [Atom.phaseOf_effect]
      exact (if_neg hne).trans (hs.stopped a ha hn)
  · intro a ha
    rw [Atom.table_effect] at ha
    rw [hbox]
    rcases List.mem_append.mp ha with ha | ha
    · rw [if_neg (hold a (hs.enlisted a ha))]
      exact hs.enlisted a ha
    · rw [if_pos (List.mem_singleton.mp ha)]
      rfl
  · rw [Atom.size_effect]
    exact Nat.le_succ _
  · intro a ha
    have hsome := hs.awake a ha
    rw [hid]
    split
    · rfl
    · exact hsome

/-! ## Renumbering -/

end Sound

/-- Mailbox `b` has moved to address `c`, where nobody was, and nothing else has changed. -/
structure Rehoused (b : BoxRef) (c : Address) (p q : Pool σ) : Prop where
  keyed : p.office.boxAt (p.office.addressOf b) = some b
  free : p.office.addressOf b ≠ c → p.office.boxAt c = none
  closed : q.office.closed = p.office.closed
  boxAt : ∀ d, q.office.boxAt d = if d = c then some b
    else if d = p.office.addressOf b then none else p.office.boxAt d
  owned : ∀ d, q.office.isOwned d = p.office.isOwned d
  address : ∀ d, q.office.addressOf d = if d = b then c else p.office.addressOf d
  actors : q.actors = p.actors
  table : q.table = p.table

/-- The other mailboxes stay where they are. -/
theorem Rehoused.boxAt_iff {b d : BoxRef} {c e : Address} {p q : Pool σ} (hr : Rehoused b c p q)
    (hd : d ≠ b) : q.office.boxAt e = some d ↔ p.office.boxAt e = some d := by
  have hne : ¬some b = some d := fun he => hd (Option.some.inj he).symm
  rw [hr.boxAt]
  split
  · rename_i hec
    refine iff_of_false hne ?_
    by_cases hsame : p.office.addressOf b = c
    · rw [hec, ← hsame, hr.keyed]
      exact hne
    · rw [hec, hr.free hsame]
      simp
  · split
    · rename_i hes
      rw [hes, hr.keyed]
      exact iff_of_false (by simp) hne
    · exact Iff.rfl

section

variable {w w' : World σ} {a : ActorRef} {b : BoxRef} {c : Address}

theorem Rehoused.boxOf_setId (hr : Rehoused b c w.pool w'.pool) (id : ActorId) (d : ActorRef) :
    ((Atom.setId a id).effect w').pool.boxOf d = w.pool.boxOf d := by
  rw [Atom.boxOf_effect]
  simp only [Pool.boxOf, Pool.actor?, hr.actors]

theorem Rehoused.idOf_setId (hr : Rehoused b c w.pool w'.pool) (hb : w.pool.boxOf a = some b)
    (id : ActorId) (d : ActorRef) : ((Atom.setId a id).effect w').pool.idOf d =
      if d = a then some id else w.pool.idOf d := by
  have hbox : w'.pool.boxOf a = some b := by
    simpa only [Pool.boxOf, Pool.actor?, hr.actors] using hb
  rw [Atom.idOf_effect]
  by_cases hda : d = a
  · simp [hda, hbox]
  · simp only [if_neg hda, if_neg (Ne.symm hda), Pool.idOf, Pool.actor?, hr.actors]

end

/-- Accesses that revoke nothing, before anybody is enrolled. -/
structure Calm (vs : List (Visit σ)) (w : World σ) : Prop where
  kept : ∀ v ∈ vs, v.atom.revocation = none
  grown : ∀ v ∈ vs, v.world.pool.actors.size ≤ w.pool.actors.size

theorem Calm.nil (w : World σ) : Calm [] w :=
  ⟨fun _ hv => absurd hv List.not_mem_nil, fun _ hv => absurd hv List.not_mem_nil⟩

theorem Calm.snoc {vs : List (Visit σ)} {w : World σ} (hc : Calm vs w) {v : Visit σ}
    (hx : v.atom.revocation = none) (hw : v.world.pool.actors.size ≤ w.pool.actors.size) :
    Calm (vs ++ [v]) w := by
  constructor <;> intro v hv <;> rcases List.mem_append.mp hv with hv | hv
  · exact hc.kept v hv
  · obtain rfl := List.mem_singleton.mp hv
    exact hx
  · exact hc.grown v hv
  · obtain rfl := List.mem_singleton.mp hv
    exact hw

theorem Calm.cutOff_append {h vs : List (Visit σ)} {w : World σ} (hc : Calm vs w) (a : ActorRef) :
    CutOff (h ++ vs) a ↔ CutOff h a := by
  rw [ActorSystem.cutOff_append, or_iff_left (not_cutOff_of_calm hc.kept a)]

/-- The registry has moved the mailbox `b` of actor `a` to address `c`; the mailbox does not know
yet. -/
def Rekeyed (a : ActorRef) (b : BoxRef) (c : Address) : Fact σ := fun h w =>
  ∃ h₀ vs w₀ o, h = h₀ ++ vs ∧ Calm vs w₀ ∧ Sound (some a) h₀ w₀ ∧ w₀.pool.boxOf a = some b ∧
    w₀.pool.office.rekey b (w₀.pool.office.addressOf b) c = .ok o ∧
    w.pool = { w₀.pool with office := o }

/-- The mailbox `b` of actor `a` has moved to address `c`; the actor still has its old ID. -/
def Rehousing (a : ActorRef) (b : BoxRef) (c : Address) : Fact σ := fun h w =>
  ∃ h₀ vs w₀, h = h₀ ++ vs ∧ Calm vs w₀ ∧ Sound (some a) h₀ w₀ ∧ w₀.pool.boxOf a = some b ∧
    Rehoused b c w₀.pool w.pool

namespace Sound

variable {who : Option ActorRef} {h : List (Visit σ)} {w : World σ}

/-- A mailbox stays where it is when the registry refuses to move it. -/
theorem unmoved (hs : Sound who h w) {b : BoxRef} {s c : Address} {e : Error}
    (hk : w.pool.office.rekey b s c = .error e) :
    Sound who (h ++ [⟨w, .rekey b s c⟩]) ((Atom.rekey b s c).effect w) := by
  have hkept : (Atom.rekey b s c).effect w = w := by simp only [Atom.effect, hk]
  rw [hkept]
  exact hs.alike rfl rfl (fun _ => rfl) (fun _ => rfl) (fun _ => rfl) (fun _ => rfl)
    (fun _ => rfl) (fun _ _ hp => hp) (fun _ ha => ha) rfl

/-- What the registry does on the way to a mailbox's new address. -/
theorem rehoused (hs : Sound who h w) {b : BoxRef} {c : Address} {o : Office σ.Value}
    (hb : w.pool.office.isOwned b)
    (hk : w.pool.office.rekey b (w.pool.office.addressOf b) c = .ok o) :
    Rehoused b c w.pool
      { w.pool with office := o.modifyBox b fun box => { box with address := c } } := by
  obtain ⟨hkeyed, hfree, hboxes, hclosed, hboxAt⟩ := Office.rekey_eq_ok hk
  have hbox : ∀ d, o.box? d = w.pool.office.box? d := fun d => by
    simp only [Office.box?, hboxes]
  refine ⟨hkeyed, fun hne => hs.free_of_not_contains (hfree hne), hclosed, hboxAt, ?_, ?_, rfl, rfl⟩
  · intro d
    simp only [Office.isOwned, Office.box?_modifyBox, hbox]
    split
    · cases w.pool.office.box? d <;> rfl
    · rfl
  · intro d
    simp only [Office.addressOf, Office.box?_modifyBox, hbox]
    by_cases hd : d = b
    · obtain ⟨box, hbox⟩ := Option.isSome_iff_exists.mp (Office.box?_isSome_of_isOwned _ hb)
      simp [hd, hbox]
    · rw [if_neg (Ne.symm hd), if_neg hd]

theorem grown_calm (hs : Sound who h w) {vs : List (Visit σ)} (hc : Calm vs w) :
    ∀ v ∈ h ++ vs, v.world.pool.actors.size ≤ w.pool.actors.size := by
  intro v hv
  rcases List.mem_append.mp hv with hv | hv
  · exact hs.grown v hv
  · exact hc.grown v hv

theorem foreign_calm (hs : Sound who h w) {vs : List (Visit σ)} (hc : Calm vs w) :
    ∀ v ∈ h ++ vs, ∀ a, ¬v.takes (.actor a) a := by
  intro v hv a
  rcases List.mem_append.mp hv with hv | hv
  · exact hs.foreign v hv a
  · exact Visit.not_takes (hc.kept v hv) _ a

/-- An actor whose mailbox can be moved is not cut off. -/
theorem not_cutOff_of_keyed (hs : Sound who h w) {a : ActorRef} {b : BoxRef}
    (hb : w.pool.boxOf a = some b) (hid : (w.pool.idOf a).isSome)
    (hk : w.pool.office.boxAt (w.pool.office.addressOf b) = some b) : ¬CutOff h a := by
  obtain ⟨old, hold⟩ := Option.isSome_iff_exists.mp hid
  rw [hs.named a b old hb hold] at hk
  exact (hs.attached a b old hb hold).mp hk

section

variable {a c : ActorRef} {b d : BoxRef} {id i : ActorId} {q : Pool σ}
variable (hs : Sound who h w) (hb : w.pool.boxOf a = some b) (hr : Rehoused b id.address w.pool q)
variable (hd : w.pool.boxOf c = some d)
variable (hi : (if c = a then some id else w.pool.idOf c) = some i)

include hs hb in
theorem boxOf_ne (hca : c ≠ a) (hd : w.pool.boxOf c = some d) : d ≠ b := by
  rintro rfl
  exact hca (hs.apart c a d hd hb)

include hs hb hr hd hi

/-- The mailbox that has moved has the address of the ID that its actor takes. -/
theorem named_rehoused : q.office.addressOf d = i.address := by
  rw [hr.address]
  by_cases hca : c = a
  · rw [if_pos hca] at hi
    cases hi
    rw [hca, hb] at hd
    cases hd
    exact if_pos rfl
  · rw [if_neg hca] at hi
    rw [if_neg (hs.boxOf_ne hb hca hd)]
    exact hs.named c d i hd hi

theorem attached_rehoused (ha : (w.pool.idOf a).isSome) :
    q.office.boxAt i.address = some d ↔ ¬CutOff h c := by
  by_cases hca : c = a
  · rw [if_pos hca] at hi
    cases hi
    rw [hca, hb] at hd
    cases hd
    rw [hca, hr.boxAt]
    exact iff_of_true (if_pos rfl) (hs.not_cutOff_of_keyed hb ha hr.keyed)
  · rw [if_neg hca] at hi
    rw [hr.boxAt_iff (hs.boxOf_ne hb hca hd)]
    exact hs.attached c d i hd hi

end

/-- An actor that is not cut off has moved to an address that nobody had, and takes the ID that
goes with it. -/
theorem moved {w' : World σ} {a : ActorRef} {b : BoxRef} {id : ActorId}
    (hr : Rehousing a b id.address h w') :
    Sound (some a) (h ++ [⟨w', .setId a id⟩]) ((Atom.setId a id).effect w') := by
  obtain ⟨h, vs, w, rfl, hcalm, hs, hb, hr⟩ := hr
  have hcalm := hcalm.snoc (v := ⟨w', .setId a id⟩) rfl (Nat.le_of_eq (by rw [hr.actors]))
  have hboxOf : ∀ c, ((Atom.setId a id).effect w').pool.boxOf c = w.pool.boxOf c :=
    hr.boxOf_setId id
  have hidOf := hr.idOf_setId hb id
  have hsize : ((Atom.setId a id).effect w').pool.actors.size = w.pool.actors.size := by
    rw [Atom.size_effect]
    exact congrArg Array.size hr.actors
  rw [List.append_assoc]
  refine ⟨hr.closed.trans hs.opened, ?_, ?_, ?_, ?_, ?_, ?_, ?_, ?_, hs.foreign_calm hcalm, ?_⟩
  · intro c d hd
    change w'.pool.office.boxAt c = some d at hd
    change w'.pool.office.isOwned d
    rw [hr.owned]
    by_cases hdb : d = b
    · rw [hdb]
      exact hs.home a b hb
    · exact hs.live c d ((hr.boxAt_iff hdb).mp hd)
  · intro c d hd
    change w'.pool.office.isOwned d
    rw [hr.owned]
    exact hs.home c d ((hboxOf c).symm.trans hd)
  · intro c e d hc he
    exact hs.apart c e d ((hboxOf c).symm.trans hc) ((hboxOf e).symm.trans he)
  · intro c d i hd hi
    change w'.pool.office.addressOf d = i.address
    exact hs.named_rehoused hb hr ((hboxOf c).symm.trans hd) ((hidOf c).symm.trans hi)
  · intro c d i hd hi
    change w'.pool.office.boxAt i.address = some d ↔ _
    rw [hcalm.cutOff_append]
    exact hs.attached_rehoused hb hr ((hboxOf c).symm.trans hd) ((hidOf c).symm.trans hi)
      (hs.awake a rfl)
  · intro c hc hn
    rw [hboxOf] at hc
    rw [hidOf] at hn
    split at hn
    · cases hn
    · rw [Atom.phaseOf_effect]
      simp only [Pool.phaseOf, Pool.actor?, hr.actors]
      exact hs.stopped c hc hn
  · intro c hc
    rw [Atom.table_effect] at hc
    rw [hboxOf]
    exact hs.enlisted c (hr.table ▸ hc)
  · rw [hsize]
    exact hs.grown_calm hcalm
  · intro c hc
    rw [hidOf]
    split
    · rfl
    · exact hs.awake c hc

end Sound

end ActorSystem
