import ActorSystem.Proofs.Act.Upkeep
import ActorSystem.Proofs.Reach.Sound

/-!
# Every routine keeps a pool sound

What a pool does to its registry and to the IDs of its actors, each act with what it does to a
sound pool. `who` is the actor that is being drained, if any: when the drain is over it is either
let go or has stopped.

* `createMailbox_sound`, `enlist_sound`: a new actor.
* `makeSick_sound`, `changeId_sound`: what an actor obeys.
* `Routine.all_sound`: routines one after another.
-/

namespace ActorSystem

variable {σ : Signature} {who : Option ActorRef}

namespace Act

theorem quiet_sound {α : Type} {t : Act σ α} (ht : t.All (·.quiet)) :
    Leads (Sound who) t fun _ => Sound who :=
  Leads.of_all ht fun _ hx _ _ hs => hs.quiet hx

theorem atom_sound {x : Atom σ} (hx : x.quiet) : Leads (Sound who) (atom x) fun _ => Sound who :=
  Leads.atom fun _ _ hs => hs.quiet hx

theorem report_sound (e : Event) : Leads (Sound (σ := σ) who) (report e) fun _ => Sound who :=
  atom_sound rfl

theorem pool_sound : Leads (Sound (σ := σ) who) pool fun _ => Sound who :=
  quiet_sound ⟨rfl, fun _ => trivial⟩

/-! ## The post office -/

theorem createMailbox_sound (c : Address) :
    Leads (Sound (σ := σ) who) (createMailbox c) fun r h w =>
      Sound who h w ∧ ∀ b, r = .ok b → Vacant b c w.pool := by
  have hmade : Leads (Sound (σ := σ) who) (atom (.createMailbox c)) fun r h w =>
      Sound who h w ∧ ∀ b, r = .ok b → Vacant b c w.pool := by
    intro h w hs
    cases hc : w.pool.office.create c with
    | ok made =>
      obtain ⟨b, o⟩ := made
      have hnew := hs.created hc
      refine ⟨hnew.1, fun d hd => ?_⟩
      simp only [run_atom, Atom.answer, hc, Except.map] at hd
      obtain rfl : b = d := Except.ok.inj hd
      exact hnew.2
    | error e =>
      refine ⟨hs.refused hc, fun d hd => ?_⟩
      simp [run_atom, Atom.answer, hc, Except.map] at hd
  refine hmade.bind fun r => ?_
  cases r with
  | ok b =>
    have hreport : Leads (fun h w => Sound (σ := σ) who h w ∧ Vacant b c w.pool)
        (report (.mailboxCreated c)) fun _ h w => Sound who h w ∧ Vacant b c w.pool :=
      Leads.atom fun h w hs => ⟨hs.1.quiet rfl, hs.2⟩
    refine (hreport.mono (fun h w hs => ⟨hs.1, hs.2 b rfl⟩) fun _ _ _ hs => hs).bind fun _ => ?_
    refine Leads.pure fun h w hs => ⟨hs.1, ?_⟩
    rintro d ⟨⟩
    exact hs.2
  | error e =>
    refine ((report_sound _).mono (fun h w hs => hs.1) fun _ _ _ hs => hs).bind fun _ => ?_
    exact Leads.pure fun h w hs => ⟨hs, fun b hb => by cases hb⟩

theorem revokeFor_sound {r : Revoker} (c : Address) :
    Leads (fun h w => Sound (σ := σ) who h w ∧ ∀ a, r = .actor a → w.pool.idOf a = none)
      (revokeFor r c) fun _ => Sound who := by
  have hrevoke : Leads (fun h w => Sound (σ := σ) who h w ∧
      ∀ a, r = .actor a → w.pool.idOf a = none) (atom (.revoke r c)) fun _ => Sound who :=
    Leads.atom fun h w hs => hs.1.revoked c hs.2
  refine hrevoke.bind fun removed => ?_
  cases removed with
  | true => exact (report_sound _).bind fun _ => Leads.pure fun _ _ hs => hs
  | false => exact (Leads.pure fun _ _ hs => hs).bind fun _ => Leads.pure fun _ _ hs => hs

theorem revoke_sound (c : Address) : Leads (Sound (σ := σ) who) (revoke c) fun _ => Sound who :=
  (revokeFor_sound c).mono (fun _ _ hs => ⟨hs, fun _ ha => by cases ha⟩) fun _ _ _ hs => hs

/-! ## A new actor -/

theorem enlist_sound {id : ActorId} {b : BoxRef} (size : Nat) {x : Actor σ} (hid : x.id = some id)
    (hb : x.box = b) :
    Leads (fun h w => Sound who h w ∧ Vacant b id.address w.pool) (enlist id size x)
      fun _ => Sound who := by
  subst hb
  let spare : Fact σ := fun h w => Sound who h w ∧ Vacant x.box id.address w.pool
  have hreserve : Leads spare (reserveId id) fun _ => spare :=
    Leads.atom fun h w hs => ⟨hs.1.quiet rfl, ⟨hs.2.owned, hs.2.address, hs.2.boxAt, hs.2.fresh⟩⟩
  have hreport : ∀ e, Leads spare (report e) fun _ => spare := fun e =>
    Leads.atom fun h w hs => ⟨hs.1.quiet rfl, hs.2⟩
  have henroll : Leads spare (atom (.enroll x)) fun _ => Sound who :=
    Leads.atom fun h w hs => hs.1.enrolled hid hs.2
  exact hreserve.bind fun _ => (hreport _).bind fun _ => henroll

/-! ## What an actor obeys -/

theorem makeSick_sound (a : ActorRef) :
    Leads (Sound (σ := σ) (some a)) (makeSick a) fun _ => Sound none := by
  have hsicken : Leads (Sound (σ := σ) (some a)) (atom (.sicken a)) fun _ h w =>
      Sound (some a) h w ∧ w.pool.phaseOf a = some .sick := by
    intro h w hs
    obtain ⟨y, hy⟩ := Option.isSome_iff_exists.mp (hs.registered rfl)
    refine ⟨hs.sickened a, ?_⟩
    rw [run_atom, Atom.phaseOf_effect]
    simp [hy]
  have hdrop : Leads (fun h w => Sound (σ := σ) (some a) h w ∧ w.pool.phaseOf a = some .sick)
      (atom (.dropId a)) fun _ h w => Sound none h w ∧ w.pool.idOf a = none := by
    intro h w hs
    refine ⟨hs.1.dropped hs.2, ?_⟩
    rw [run_atom, Atom.idOf_effect]
    exact if_pos rfl
  have hlook : Leads (fun h w => Sound (σ := σ) none h w ∧ w.pool.idOf a = none) pool
      fun _ h w => Sound none h w ∧ w.pool.idOf a = none :=
    fun h w hs => ⟨pool_sound h w hs.1, hs.2⟩
  refine hsicken.bind fun _ => hdrop.bind fun _ => hlook.bind fun p => ?_
  refine Leads.bind ((revokeFor_sound _).mono (fun h w hs => ⟨hs.1, ?_⟩) fun _ _ _ hs => hs)
    fun _ => pool_sound.bind fun _ => report_sound _
  rintro c ⟨⟩
  exact hs.2

/-- What `a` has and where it is: what an actor knows of itself before it moves. -/
def Settled (a : ActorRef) (b : BoxRef) : Fact σ := fun h w =>
  Sound (some a) h w ∧ w.pool.boxOf a = some b

theorem rekey_sound {a : ActorRef} {b : BoxRef} {c : Address} {p : Pool σ} :
    Leads (fun h w => p = w.pool ∧ Settled a b h w) (atom (.rekey b (p.office.addressOf b) c))
      fun r => match r with
        | .ok () => Rekeyed a b c
        | .error _ => Sound (some a) := by
  rintro h w ⟨rfl, hs, hb⟩
  rw [run_atom, visits_atom]
  simp only [Atom.answer]
  cases hk : w.pool.office.rekey b (w.pool.office.addressOf b) c with
  | error e => exact hs.unmoved hk
  | ok o =>
    have hcalm := (Calm.nil w).snoc (v := ⟨w, .rekey b (w.pool.office.addressOf b) c⟩) rfl
      (Nat.le_refl _)
    refine ⟨h, _, w, o, rfl, hcalm, hs, hb, hk, ?_⟩
    simp only [Atom.effect, hk]
    rfl

theorem setAddress_sound {a : ActorRef} {b : BoxRef} {c : Address} :
    Leads (Rekeyed (σ := σ) a b c) (atom (.setAddress b c)) fun _ => Rehousing a b c := by
  rintro h w ⟨h₀, vs, w₀, o, rfl, hcalm, hs, hb, hk, hw⟩
  have hlast := hcalm.snoc (v := ⟨w, .setAddress b c⟩) rfl (Nat.le_of_eq (by rw [hw]))
  refine ⟨h₀, _, w₀, List.append_assoc _ _ _, hlast, hs, hb, ?_⟩
  have hr := hs.rehoused (hs.home a b hb) hk
  simp only [run_atom, Atom.effect, World.modifyOffice, World.modifyPool, hw]
  exact hr

/-- A mailbox moves, or nothing changes. -/
theorem readdress_sound (a : ActorRef) (b : BoxRef) (c : Address) :
    Leads (Settled (σ := σ) a b) (readdress b c)
      fun r => match r with
        | .ok () => Rehousing a b c
        | .error _ => Sound (some a) := by
  have hlook : Leads (Settled (σ := σ) a b) pool fun p h w => p = w.pool ∧ Settled a b h w :=
    fun h w hs => ⟨rfl, hs.1.quiet rfl, hs.2⟩
  refine hlook.bind fun p => ?_
  dsimp only
  split
  · refine Leads.pure ?_
    rintro h w ⟨rfl, hs, -⟩
    exact hs
  refine rekey_sound.bind fun r => ?_
  cases r with
  | error e => exact Leads.pure fun _ _ hs => hs
  | ok =>
    have hreport : ∀ e, Leads (Rekeyed (σ := σ) a b c) (report e) fun _ => Rekeyed a b c := by
      rintro e h w ⟨h₀, vs, w₀, o, rfl, hcalm, hs, hb, hk, hw⟩
      have hlast := hcalm.snoc (v := ⟨w, .report e⟩) rfl (Nat.le_of_eq (by rw [hw]))
      exact ⟨h₀, _, w₀, o, List.append_assoc _ _ _, hlast, hs, hb, hk, hw⟩
    dsimp only
    split
    · refine (hreport _).bind fun _ => ?_
      exact setAddress_sound.bind fun _ => Leads.pure fun _ _ hs => hs
    · exact setAddress_sound.bind fun _ => Leads.pure fun _ _ hs => hs

theorem changeId_sound (a : ActorRef) (id : ActorId) :
    Leads (Sound (σ := σ) (some a)) (changeId a id) fun _ => Sound (some a) := by
  have hlook : Leads (Sound (σ := σ) (some a)) pool
      fun p h w => p = w.pool ∧ Sound (some a) h w :=
    fun h w hs => ⟨rfl, hs.quiet rfl⟩
  refine hlook.bind fun p => ?_
  dsimp only
  split
  · rename_i x hx
    split
    · exact (report_sound _).mono (fun _ _ hs => hs.2) fun _ _ _ hs => hs
    have hsettled : ∀ h w, p = w.pool ∧ Sound (some a) h w → Settled a x.box h w := by
      rintro h w ⟨rfl, hs⟩
      exact ⟨hs, by rw [Pool.boxOf, hx]; rfl⟩
    refine ((readdress_sound a x.box id.address).mono hsettled fun _ _ _ hs => hs).bind fun r => ?_
    cases r with
    | error e => exact report_sound _
    | ok =>
      have hset : Leads (Rehousing (σ := σ) a x.box id.address) (atom (.setId a id))
          fun _ => Sound (some a) := Leads.atom fun _ _ hr => Sound.moved hr
      refine hset.bind fun _ => ?_
      exact (atom_sound (x := .reserve id) rfl).bind fun _ => report_sound _
  · exact Leads.pure fun _ _ hs => hs.2

/-! ## Taking an actor and letting it go -/

theorem tryBegin_sound (a : ActorRef) :
    Leads (Sound (σ := σ) none) (tryBegin a) fun taken =>
      Sound (if taken then some a else none) := by
  intro h w hs
  have hclaimed := hs.quiet (x := .claim a) rfl
  change Sound (if w.pool.isIdle a then some a else none) (h ++ [⟨w, .claim a⟩])
    ((Atom.claim a).effect w)
  cases hi : w.pool.isIdle a with
  | false => exact hclaimed
  | true =>
    refine { hclaimed with awake := ?_ }
    rintro c ⟨⟩
    rw [Atom.idOf_effect]
    refine Option.ne_none_iff_isSome.mp fun hn => ?_
    have hp := Pool.isIdle_iff.mp hi
    have hreg := Pool.boxOf_isSome_iff.mpr (Pool.phaseOf_isSome_iff.mp (by rw [hp]; rfl))
    rw [hs.stopped a hreg hn] at hp
    cases hp

theorem finish_sound (a : ActorRef) (o : Outcome) :
    Leads (Sound (σ := σ) (heldAfter a o)) (finish a o) fun _ => Sound none := by
  refine Leads.atom fun h w hs => hs.finished fun ho => ?_
  exact hs.awake a (if_neg ho)

end Act

/-! ## Routines -/

open Act

theorem Atom.quiet_of_plain {x : Atom σ} (hx : x.plain) : x.quiet := by
  cases x <;> first | rfl | cases hx

theorem sound_upkeep {company : Company σ} (hc : company.Discreet) :
    Upkeep company Sound fun who id b h w => Sound who h w ∧ Vacant b id.address w.pool where
  plain who x hx := atom_sound (Atom.quiet_of_plain hx)
  outside who c := quiet_sound (hc c)
  revoke who c := revoke_sound c
  create who id := by
    refine (createMailbox_sound id.address).mono (fun h w hs => hs.1) fun r h w hs => ?_
    cases r with
    | ok b => exact ⟨hs.1, hs.2 b rfl⟩
    | error e => exact hs.1
  enlist who id b size x hid hb _ := enlist_sound size hid hb
  claim := tryBegin_sound
  finish := finish_sound
  changeId := changeId_sound
  makeSick := makeSick_sound

theorem Routine.all_sound {company : Company σ} (hc : company.Discreet) (rs : List (Routine σ)) :
    Act.Leads (Sound none) (Routine.all company rs) fun _ => Sound none :=
  (sound_upkeep hc).all rs

end ActorSystem
