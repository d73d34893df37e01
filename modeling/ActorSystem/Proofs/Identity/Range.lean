import ActorSystem.Proofs.Crew.Stage
import ActorSystem.Proofs.Identity.Agreement
import Mathlib.Data.Nat.Bitwise

/-!
# The range of IDs

The lower half of the address space is for actors, the upper half for names. An actor that asks
for an ID of the upper half is refused; the counter, from which new actors get their IDs, is not
compared with anything. So the two stay apart until some actor has taken the last ID of the lower
half: the actors that register after that get IDs of the upper half.

* `Numbering`: what has to be checked of a fact about the counter.
* `InRange`: what the counter and the IDs have to do with each other.
* `ids_stay_low_iff`: IDs stay in the lower half exactly until this happens.
* `named_id`: it does happen.
-/

namespace ActorSystem

variable {σ : Signature} {α : Type}

/-! ## The last ID -/

/-- The last ID below the addresses of names. -/
def ActorId.last : ActorId := ⟨0x7FFFFFFFFFFFFFFF⟩

theorem Address.isNamed_iff (a : Address) : a.isNamed ↔ ActorId.last.raw < a.raw := by
  have hbit : (a.raw &&& namedBit).toNat = (a.raw.toNat.testBit 63).toNat * 2 ^ 63 := by
    rw [UInt64.toNat_and]
    exact Nat.and_two_pow _ 63
  have hlt : a.raw.toNat < 2 ^ 64 := a.raw.toNat_lt
  have hlast : ActorId.last.raw.toNat = 2 ^ 63 - 1 := rfl
  have hzero : (0 : UInt64).toNat = 0 := rfl
  have htop : a.raw.toNat.testBit 63 ↔ 2 ^ 63 ≤ a.raw.toNat := by
    rw [Nat.testBit_eq_decide_div_mod_eq, decide_eq_true_eq]
    omega
  rw [isNamed, bne_iff_ne, ne_eq, ← UInt64.toNat_inj, hbit, hzero, UInt64.lt_iff_toNat_lt, hlast]
  cases hb : a.raw.toNat.testBit 63 with
  | true =>
    have hge := htop.mp hb
    simp only [Bool.toNat_true]
    omega
  | false =>
    have hlow : ¬2 ^ 63 ≤ a.raw.toNat := fun hge => by simp [htop.mpr hge] at hb
    simp only [Bool.toNat_false]
    omega

/-- Where the counter is after it has made way for an ID. -/
theorem ActorId.last_lt_max {n m : UInt64} (h : n ≤ last.raw ∨ n ≤ m) :
    last.raw < max m (n + 1) ↔ last.raw < m ∨ n = last.raw := by
  have hmax : max m (n + 1) = if m ≤ n + 1 then n + 1 else m := rfl
  have hlast : last.raw.toNat = 2 ^ 63 - 1 := rfl
  have hadd : (n + 1).toNat = (n.toNat + 1) % 2 ^ 64 := by rw [UInt64.toNat_add]; rfl
  have hn := n.toNat_lt
  have hm := m.toNat_lt
  simp only [UInt64.le_iff_toNat_le, hlast] at h
  rw [hmax]
  split <;> rename_i hle <;>
    simp only [UInt64.le_iff_toNat_le, UInt64.lt_iff_toNat_lt, ← UInt64.toNat_inj, hlast, hadd]
      at hle ⊢ <;> omega

theorem Address.isNamed_eq_false_iff (c : Address) : c.isNamed = false ↔ c.raw.toNat < 2 ^ 63 := by
  have hlast : ActorId.last.raw.toNat = 2 ^ 63 - 1 := rfl
  rw [← Bool.not_eq_true, isNamed_iff, UInt64.lt_iff_toNat_lt, hlast]
  omega

/-- The counter makes way for an ID of the lower half without running over. -/
theorem ActorId.toNat_max {id : ActorId} (h : id.raw.toNat < 2 ^ 63) (m : UInt64) :
    (max m (id.raw + 1)).toNat = max m.toNat (id.raw.toNat + 1) := by
  have hmax : max m (id.raw + 1) = if m ≤ id.raw + 1 then id.raw + 1 else m := rfl
  have hadd : (id.raw + 1).toNat = id.raw.toNat + 1 := by
    rw [UInt64.toNat_add]
    exact Nat.mod_eq_of_lt (Nat.lt_of_le_of_lt (Nat.succ_le_of_lt h) (by decide))
  rw [hmax]
  split <;> rename_i hle <;> rw [UInt64.le_iff_toNat_le] at hle <;> omega

/-! ## Who gets an ID -/

/-- The access gives nobody an ID and leaves the counter alone. -/
def Atom.numberless : Atom σ → Bool
  | alter _ | enroll _ | setId .. | reserve _ => false
  | _ => true

theorem Atom.numberless_of_public {x : Atom σ} (hx : x.public) : x.numberless := by
  cases x <;> first | rfl | cases hx

theorem Atom.numberless_of_plain {x : Atom σ} (hx : x.plain) : x.numberless := by
  cases x <;> first | rfl | cases hx

theorem Atom.nextId_of_numberless {x : Atom σ} (hx : x.numberless) (w : World σ) :
    (x.effect w).pool.nextId = w.pool.nextId := by
  rw [Atom.nextId_effect]
  cases x <;> first | rfl | cases hx

theorem le_max_counter (m n : UInt64) : m ≤ max m n := by
  have hmax : max m n = if m ≤ n then n else m := rfl
  rw [hmax]
  split
  · assumption
  · exact UInt64.le_refl _

/-- An alteration is one of the post office. -/
def Atom.Confined (x : Atom σ) : Prop := ∀ f, x = .alter f → ∃ g, f = (·.modifyOffice g)

/-- The counter never goes back. -/
theorem Atom.le_nextId_effect {x : Atom σ} (hx : x.Confined) (w : World σ) :
    w.pool.nextId ≤ (x.effect w).pool.nextId := by
  rw [nextId_effect]
  cases x with
  | alter f =>
    obtain ⟨g, rfl⟩ := hx f rfl
    exact UInt64.le_refl _
  | reserve id => exact le_max_counter _ _
  | _ => exact UInt64.le_refl _

/-- The ID that an actor gets by this access. -/
def Visit.given (v : Visit σ) : Option ActorId :=
  match v.atom with
  | .enroll x => x.id
  | .setId _ id => some id
  | _ => none

/-- The ID that an actor is registered with by this access. -/
def Visit.newId (v : Visit σ) : Option ActorId :=
  match v.atom with
  | .enroll x => x.id
  | _ => none

/-- Some actor has been given the last ID of the lower half. -/
def Spent (h : List (Visit σ)) : Prop := ∃ v ∈ h, v.given = some .last

/-- An actor has been registered after that. -/
def Overrun (h : List (Visit σ)) : Prop :=
  ∃ u v, List.Sublist [u, v] h ∧ u.given = some .last ∧ v.newId.isSome

theorem Overrun.append {h : List (Visit σ)} (ho : Overrun h) (vs : List (Visit σ)) :
    Overrun (h ++ vs) := by
  obtain ⟨u, v, hsub, hu, hv⟩ := ho
  exact ⟨u, v, hsub.trans (List.sublist_append_left h vs), hu, hv⟩

theorem Spent.overrun {h vs : List (Visit σ)} (hs : Spent h) {v : Visit σ} (hv : v ∈ vs)
    (hnew : v.newId.isSome) : Overrun (h ++ vs) := by
  obtain ⟨u, hu, hlast⟩ := hs
  have hsub : List.Sublist ([u] ++ [v]) (h ++ vs) :=
    List.Sublist.append (List.singleton_sublist.mpr hu) (List.singleton_sublist.mpr hv)
  exact ⟨u, v, hsub, hlast, hnew⟩

theorem spent_append (h vs : List (Visit σ)) : Spent (h ++ vs) ↔ Spent h ∨ Spent vs := by
  simp only [Spent, List.mem_append, or_and_right, exists_or]

/-! ## The invariant -/

/-- New actors get IDs of the upper half exactly after the last one of the lower half has been
given away, and nobody else has such an ID. -/
structure InRange (h : List (Visit σ)) (w : World σ) : Prop where
  counter : ActorId.last.raw < w.pool.nextId ↔ Spent h
  early : ∀ v ∈ h, ∀ id, v.newId = some id → id.address.isNamed → Overrun h
  late : h.Pairwise fun u v => u.given = some .last → ∀ id, v.newId = some id → id.address.isNamed
  low : ∀ a id, w.pool.idOf a = some id → id.address.isNamed → Overrun h

namespace InRange

variable {h vs : List (Visit σ)} {w w' : World σ} {id : ActorId}

theorem start (config : Config) (env : σ.Env) : InRange [] (World.empty config env : World σ) where
  counter := by
    have hlow : ¬ActorId.last.raw < (1 : UInt64) := by decide
    refine iff_of_false hlow ?_
    rintro ⟨v, hv, -⟩
    cases hv
  early v hv := by cases hv
  late := List.Pairwise.nil
  low a id ha := by simp [Pool.idOf, Pool.actor?, World.empty] at ha

theorem numberless (hr : InRange h w) {x : Atom σ} (hx : x.numberless) :
    InRange (h ++ [⟨w, x⟩]) (x.effect w) := by
  have hgiven : (⟨w, x⟩ : Visit σ).given = none := by cases x <;> first | rfl | cases hx
  have hnew : (⟨w, x⟩ : Visit σ).newId = none := by cases x <;> first | rfl | cases hx
  have hspent : Spent (h ++ [⟨w, x⟩]) ↔ Spent h := by
    rw [spent_append, or_iff_left]
    rintro ⟨v, hv, hlast⟩
    obtain rfl := List.mem_singleton.mp hv
    rw [hgiven] at hlast
    cases hlast
  refine ⟨?_, ?_, ?_, ?_⟩
  · rw [Atom.nextId_of_numberless hx, hspent]
    exact hr.counter
  · intro v hv id hid hnamed
    rcases List.mem_append.mp hv with hv | hv
    · exact (hr.early v hv id hid hnamed).append _
    · obtain rfl := List.mem_singleton.mp hv
      rw [hnew] at hid
      cases hid
  · refine List.pairwise_append.mpr ⟨hr.late, List.pairwise_singleton _ _, ?_⟩
    intro u _ v hv _ id hid
    obtain rfl := List.mem_singleton.mp hv
    rw [hnew] at hid
    cases hid
  · intro a id hid hnamed
    refine (hr.low a id ?_ hnamed).append _
    rw [Atom.idOf_effect] at hid
    cases x with
    | alter | enroll | setId | reserve => cases hx
    | dropId c =>
      dsimp only at hid
      split at hid
      · cases hid
      · exact hid
    | _ => exact hid

section Enlist

variable (size : Nat) {x : Actor σ} (hx : x.id = some id)

include hx

/-- Only the last access gives somebody an ID. -/
theorem ids_enlist : ∀ v ∈ (Act.enlist id size x).visits w,
    v.newId = none ∧ v.given = none ∨ v.newId = some id ∧ v.given = some id := by
  intro v hv
  rcases List.mem_cons.mp hv with rfl | hv
  · exact .inl ⟨rfl, rfl⟩
  rcases List.mem_cons.mp hv with rfl | hv
  · exact .inl ⟨rfl, rfl⟩
  · obtain rfl := List.mem_singleton.mp hv
    exact .inr ⟨hx, hx⟩

theorem exists_id_enlist :
    ∃ v ∈ (Act.enlist id size x).visits w, v.newId = some id ∧ v.given = some id :=
  ⟨_, List.mem_cons_of_mem _ (List.mem_cons_of_mem _ (List.mem_singleton_self _)), hx, hx⟩

theorem spent_enlist :
    Spent (h ++ (Act.enlist id size x).visits w) ↔ Spent h ∨ id.raw = ActorId.last.raw := by
  obtain ⟨v, hv, hvid⟩ := exists_id_enlist (w := w) size hx
  rw [spent_append]
  refine or_congr_right ⟨?_, fun hid => ⟨v, hv, ?_⟩⟩
  · rintro ⟨u, hu, hlast⟩
    rcases ids_enlist size hx u hu with ⟨-, hnone⟩ | ⟨-, hsome⟩
    · rw [hnone] at hlast
      cases hlast
    · rw [Option.some.inj (hsome.symm.trans hlast)]
  · rw [hvid.2]
    exact congrArg (fun raw => some (ActorId.mk raw)) hid

/-- A new actor gets the ID that the counter shows, and the counter moves on. -/
theorem enlist (hr : InRange h w) (hnext : w.pool.nextId = id.raw) :
    InRange (h ++ (Act.enlist id size x).visits w) ((Act.enlist id size x).run w).2 := by
  let vs := (Act.enlist id size x).visits w
  have hids := ids_enlist (w := w) size hx
  obtain ⟨v, hv, hvid⟩ := exists_id_enlist (w := w) size hx
  -- an ID of the upper half comes after the last one of the lower half
  have hover : id.address.isNamed → Spent h := by
    intro hnamed
    have hlt := (Address.isNamed_iff _).mp hnamed
    rw [← hr.counter, hnext]
    exact hlt
  have hend : id.address.isNamed → Overrun (h ++ vs) :=
    fun hnamed => (hover hnamed).overrun hv (by rw [hvid.1]; rfl)
  refine ⟨?_, ?_, ?_, ?_⟩
  · have hcounter : ((Act.enlist id size x).run w).2.pool.nextId =
        max w.pool.nextId (id.raw + 1) := rfl
    have hle : id.raw ≤ w.pool.nextId := by
      rw [hnext]
      exact UInt64.le_refl _
    rw [hcounter, spent_enlist size hx, ActorId.last_lt_max (.inr hle), hr.counter]
  · intro u hu i hi hnamed
    rcases List.mem_append.mp hu with hu | hu
    · exact (hr.early u hu i hi hnamed).append _
    · rcases hids u hu with ⟨hnone, -⟩ | ⟨hsome, -⟩
      · rw [hnone] at hi
        cases hi
      · cases hsome.symm.trans hi
        exact hend hnamed
  · have hfirst : ∀ {u : Visit σ}, u.given = none → ∀ v ∈ vs, u.given = some ActorId.last → ∀ i,
        v.newId = some i → i.address.isNamed := by
      intro u hnone v _ hlast
      rw [hnone] at hlast
      cases hlast
    have hnew : vs.Pairwise fun u v => u.given = some .last → ∀ i, v.newId = some i →
        i.address.isNamed := by
      refine List.pairwise_cons.mpr ⟨fun v hv => hfirst rfl v (List.mem_cons_of_mem _ hv), ?_⟩
      refine List.pairwise_cons.mpr ⟨fun v hv => hfirst rfl v ?_, List.pairwise_singleton _ _⟩
      exact List.mem_cons_of_mem _ (List.mem_cons_of_mem _ hv)
    refine List.pairwise_append.mpr ⟨hr.late, hnew, fun u hu v hv hlast i hi => ?_⟩
    rcases hids v hv with ⟨hnone, -⟩ | ⟨hsome, -⟩
    · rw [hnone] at hi
      cases hi
    · cases hsome.symm.trans hi
      have hspent : Spent h := ⟨u, hu, hlast⟩
      rw [← hr.counter, hnext] at hspent
      exact (Address.isNamed_iff _).mpr hspent
  · intro a i hi hnamed
    have hidOf : ((Act.enlist id size x).run w).2.pool.idOf a =
        if a = w.pool.actors.size then x.id else w.pool.idOf a :=
      Atom.idOf_effect (.enroll x) _ a
    rw [hidOf] at hi
    split at hi
    · cases hx.symm.trans hi
      exact hend hnamed
    · exact (hr.low a i hi hnamed).append _

end Enlist

/-- An actor takes an ID of the lower half, and the counter makes way for it. -/
theorem renumber (hr : InRange h w) (a : ActorRef) (hlow : id.address.isNamed = false) :
    InRange (h ++ [⟨w, .setId a id⟩, ⟨(Atom.setId a id).effect w, .reserve id⟩])
      ((Atom.reserve id).effect ((Atom.setId a id).effect w)) := by
  let vs : List (Visit σ) := [⟨w, .setId a id⟩, ⟨(Atom.setId a id).effect w, .reserve id⟩]
  have hnone : ∀ v ∈ vs, v.newId = none := by
    intro v hv
    rcases List.mem_cons.mp hv with rfl | hv
    · rfl
    · obtain rfl := List.mem_singleton.mp hv
      rfl
  have hspent : Spent (h ++ vs) ↔ Spent h ∨ id.raw = ActorId.last.raw := by
    rw [spent_append]
    refine or_congr_right ⟨?_, fun hid => ⟨_, List.mem_cons_self, ?_⟩⟩
    · rintro ⟨u, hu, hlast⟩
      rcases List.mem_cons.mp hu with rfl | hu
      · rw [Option.some.inj (show some id = some ActorId.last from hlast)]
      · obtain rfl := List.mem_singleton.mp hu
        cases hlast
    · exact congrArg (fun raw => some (ActorId.mk raw)) hid
  have hle : id.raw ≤ ActorId.last.raw := by
    refine UInt64.not_lt.mp fun hlt => ?_
    have hnamed := (Address.isNamed_iff id.address).mpr hlt
    rw [hlow] at hnamed
    cases hnamed
  refine ⟨?_, ?_, ?_, ?_⟩
  · change ActorId.last.raw < max w.pool.nextId (id.raw + 1) ↔ Spent (h ++ vs)
    rw [hspent, ActorId.last_lt_max (.inl hle), hr.counter]
  · intro v hv i hi hnamed
    rcases List.mem_append.mp hv with hv | hv
    · exact (hr.early v hv i hi hnamed).append _
    · rw [hnone v hv] at hi
      cases hi
  · refine List.pairwise_append.mpr ⟨hr.late, ?_, ?_⟩
    · refine List.pairwise_of_forall_mem_list fun u _ v hv _ i hi => ?_
      rw [hnone v hv] at hi
      cases hi
    · intro u _ v hv _ i hi
      rw [hnone v hv] at hi
      cases hi
  · intro c i hi hnamed
    change ((Atom.setId a id).effect w).pool.idOf c = some i at hi
    rw [Atom.idOf_effect] at hi
    dsimp only at hi
    split at hi
    · obtain ⟨-, -, rfl⟩ := Option.map_eq_some_iff.mp hi
      rw [hlow] at hnamed
      cases hnamed
    · exact (hr.low c i hi hnamed).append _

end InRange

/-! ## Every routine keeps it -/

/-- The fact is kept where nobody gets an ID, where a new actor gets the one that the counter shows,
and where an actor takes one of the lower half. -/
structure Numbering (I : Fact σ) : Prop where
  plain : ∀ x : Atom σ, x.numberless → ∀ h w, I h w → I (h ++ [⟨w, x⟩]) (x.effect w)
  enlist : ∀ (id : ActorId) size (x : Actor σ), x.id = some id → ∀ h w, I h w →
    w.pool.nextId = id.raw →
    I (h ++ (Act.enlist id size x).visits w) ((Act.enlist id size x).run w).2
  renumber : ∀ a (id : ActorId), id.address.isNamed = false → ∀ h w, I h w →
    I (h ++ [⟨w, .setId a id⟩, ⟨(Atom.setId a id).effect w, .reserve id⟩])
      ((Atom.reserve id).effect ((Atom.setId a id).effect w))

namespace Numbering

open Act

variable {I : Fact σ} (hI : Numbering I)

include hI

theorem of_all {t : Act σ α} (ht : t.All (·.numberless)) : Leads I t fun _ => I :=
  Leads.of_all ht hI.plain

theorem create (id : ActorId) :
    Leads (fun h w => I h w ∧ w.pool.nextId = id.raw) (createMailbox id.address)
      fun _ h w => I h w ∧ w.pool.nextId = id.raw := by
  have hall : (createMailbox (σ := σ) id.address).All (·.numberless) :=
    all_createMailbox (P := fun x => x.numberless) (fun _ => rfl) rfl
  refine Leads.of_all hall fun x hx h w hr => ⟨hI.plain x hx h w hr.1, ?_⟩
  rw [Atom.nextId_of_numberless hx]
  exact hr.2

theorem changeId (a : ActorRef) (id : ActorId) : Leads I (changeId a id) fun _ => I := by
  have hreport : ∀ e, Leads I (report e) fun _ => I := fun e => hI.of_all (all_report rfl)
  have hlook : Leads I pool fun _ => I := hI.of_all ⟨rfl, fun _ => trivial⟩
  refine hlook.bind fun p => ?_
  dsimp only
  split
  · rename_i x hx
    cases hnamed : id.address.isNamed with
    | true => exact hreport _
    | false =>
      have hmove : (readdress (σ := σ) x.box id.address).All (·.numberless) :=
        all_readdress (P := fun x => x.numberless) rfl (fun _ => rfl) (fun _ => rfl) rfl
      refine (hI.of_all hmove).bind fun r => ?_
      cases r with
      | error e => exact hreport _
      | ok u =>
        have htake : Leads I (atom (.setId a id) >>= fun _ => reserveId id) fun _ => I :=
          hI.renumber a id hnamed
        exact htake.bind fun _ => hreport _
  · exact Leads.pure fun _ _ hr => hr

/-- It is enough that the outside keeps it. -/
theorem upkeep {company : Company σ} (hc : ∀ c, Leads I (company.outside c) fun _ => I) :
    Upkeep company (fun _ => I) fun _ id _ h w => I h w ∧ w.pool.nextId = id.raw where
  plain _ x hx := Leads.atom fun h w hr => hI.plain x (Atom.numberless_of_plain hx) h w hr
  outside _ c := hc c
  revoke _ c := hI.of_all (all_revokeFor (P := fun x => x.numberless) (fun _ => rfl) rfl)
  create _ id := by
    refine (hI.create id).mono (fun _ _ hr => hr) fun r h w hr => ?_
    cases r with
    | ok b => exact hr
    | error e => exact hr.1
  enlist _ id b size x hid _ _ := fun h w hr => hI.enlist id size x hid h w hr.1 hr.2
  claim a := Leads.atom fun h w hr => hI.plain (.claim a) rfl h w hr
  finish a o := Leads.atom fun h w hr => hI.plain (.finish a o) rfl h w hr
  changeId a id := hI.changeId a id
  makeSick a := hI.of_all
    (all_makeSick (P := fun x => x.numberless) rfl (fun _ => rfl) rfl rfl fun _ => rfl)

end Numbering

theorem InRange.numbering : Numbering (InRange (σ := σ)) where
  plain _ hx _ _ hr := hr.numberless hx
  enlist _ size _ hx _ _ hr hnext := InRange.enlist size hx hr hnext
  renumber a _ hlow _ _ hr := hr.renumber a hlow

theorem range_upkeep {company : Company σ} (hc : company.Civil) :
    Upkeep company (fun _ => InRange) fun _ id _ h w => InRange h w ∧ w.pool.nextId = id.raw :=
  InRange.numbering.upkeep fun c =>
    InRange.numbering.of_all ((hc c).mono fun _ => Atom.numberless_of_public)

/-! ## What comes of it -/

open Act

/-- All IDs that actors were registered with, and the IDs and addresses that healthy actors have
now, are in the lower half, where the address of no name is. -/
structure Low (h : List (Visit σ)) (w : World σ) : Prop where
  registered : ∀ v ∈ h, ∀ id, v.newId = some id → id.address.isNamed = false
  healthy : ∀ a, (w.pool.boxOf a).isSome → w.pool.isSick a = false →
    ∃ id, w.pool.idOf a = some id ∧ w.pool.addressOf a = id.address ∧
      id.address.isNamed = false ∧ ∀ name, Address.ofName name ≠ w.pool.addressOf a

/-- After any routines, one after another and by either strategy, IDs and addresses of actors are
in the lower half exactly if nobody has been registered after the last ID of this half was given
away. -/
theorem ids_stay_low_iff (company : Company σ) (hc : company.Discreet) (hp : company.Civil)
    (config : Config) (env : σ.Env) (rs : List (Routine σ)) (w : World σ) (h : List (Visit σ))
    (hw : ((Routine.all company rs).run (.empty config env)).2 = w)
    (hh : (Routine.all company rs).visits (.empty config env) = h) :
    Low h w ↔ ¬Overrun h := by
  have hr : InRange h w := by
    have hall := (range_upkeep hp).all rs [] _ (InRange.start config env)
    rwa [hw, hh] at hall
  have horder : w.pool.InOrder none := by
    have hall := (papers_upkeep hc.postal).all rs [] _ (Papers.start config env)
    rw [hw] at hall
    exact hall.1
  constructor
  · rintro hlow ⟨u, v, hsub, hu, hv⟩
    obtain ⟨id, hid⟩ := Option.isSome_iff_exists.mp hv
    have hpair := hr.late.sublist hsub
    have hnamed := List.rel_of_pairwise_cons hpair (List.mem_singleton_self v) hu id hid
    rw [hlow.registered v (hsub.subset (by simp)) id hid] at hnamed
    cases hnamed
  · intro hover
    refine ⟨fun v hv id hid => ?_, fun a ha hwell => ?_⟩
    · rw [Bool.eq_false_iff]
      exact fun hnamed => hover (hr.early v hv id hid hnamed)
    · obtain ⟨b, hb⟩ := Option.isSome_iff_exists.mp ha
      obtain ⟨id, hid, haddress, -⟩ := horder.agrees.healthy a b hb hwell
      have hlow : id.address.isNamed = false := by
        rw [Bool.eq_false_iff]
        exact fun hnamed => hover (hr.low a id hid hnamed)
      refine ⟨id, hid, haddress, hlow, fun name => ?_⟩
      rw [haddress]
      exact Address.ofName_ne_address hlow

namespace Mute

/-- An actor is told to take the ID `id`, and another one registers. -/
def crossing (id : ActorId) : List (Routine signature) :=
  [register, post ⟨1⟩ (.setId id), .sweep 0 0, register]

end Mute

theorem crossing_stays_low :
    Low (Mute.visitsOf (Mute.crossing ⟨0x7FFFFFFFFFFFFFFE⟩))
      (Mute.worldAfter (Mute.crossing ⟨0x7FFFFFFFFFFFFFFE⟩)) := by
  -- the second actor gets the last ID, and no third one comes
  have hlast : (Mute.visitsOf (Mute.crossing ⟨0x7FFFFFFFFFFFFFFE⟩)).Pairwise
      fun u v => u.given = some .last → v.newId = none := by
    decide +kernel
  have hover : ¬Overrun (Mute.visitsOf (Mute.crossing ⟨0x7FFFFFFFFFFFFFFE⟩)) := by
    rintro ⟨u, v, hsub, hu, hv⟩
    have hnone := List.rel_of_pairwise_cons (hlast.sublist hsub) (List.mem_singleton_self v) hu
    rw [hnone] at hv
    cases hv
  exact (ids_stay_low_iff Mute.company nofun nofun {} () (Mute.crossing ⟨0x7FFFFFFFFFFFFFFE⟩) _ _
    rfl rfl).mpr hover

/-- The first actor has taken the last ID of the lower half, and the second gets one of the upper
half. -/
theorem named_id :
    (Mute.worldAfter (Mute.crossing .last)).pool.isSick 1 = false ∧
      ∃ id, (Mute.worldAfter (Mute.crossing .last)).pool.idOf 1 = some id ∧
        id.address.isNamed ∧
        (Mute.worldAfter (Mute.crossing .last)).pool.addressOf 1 = id.address :=
  ⟨by decide +kernel, ⟨0x8000000000000000⟩, by decide +kernel, by decide +kernel,
    by decide +kernel⟩

end ActorSystem
