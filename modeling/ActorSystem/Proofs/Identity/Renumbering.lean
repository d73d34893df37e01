import ActorSystem.Proofs.Identity.Range
import ActorSystem.Proofs.Reach.Occurring

/-!
# Renumbering

An actor that is told to take another ID has four things to change: the registry, its mailbox's own
address, its ID and the counter. Either all of them change or none, and what the registry looks like
when the actor begins decides which: the actor must still be where it believes it is, and nobody
else where it is to go.

* `Office.readdress_law`: a mailbox moves, or the office stays as it was.
* `Act.obeys_setId`: so does an actor.
* `renumbering_is_all_or_nothing`: at any moment of any run.
-/

namespace ActorSystem

variable {σ : Signature}

/-! ## Moving a mailbox -/

namespace Office

variable {V : Type} {o o' : Office V} {b : BoxRef} {c : Address}

/-- Mailbox `b` is where it believes it is, and no other live mailbox is at `c`. -/
def Admits (o : Office V) (b : BoxRef) (c : Address) : Prop :=
  o.find? (o.addressOf b) = some b ∧ (c = o.addressOf b ∨ o.find? c = none)

instance (o : Office V) (b : BoxRef) (c : Address) : Decidable (o.Admits b c) :=
  inferInstanceAs (Decidable (_ ∧ _))

/-- What is wrong with a move to `c`. The mailbox's own address counts before the new one. -/
def objection (o : Office V) (b : BoxRef) (c : Address) : Error :=
  if o.find? (o.addressOf b) = some b then .addressInUse c else .addressNotFound (o.addressOf b)

/-- Mailbox `b` has moved to `c` with its letters, and nothing else has changed. -/
structure Moved (b : BoxRef) (c : Address) (o o' : Office V) : Prop where
  there : o'.find? c = some b
  left : o.addressOf b ≠ c → o'.find? (o.addressOf b) = none
  registry : ∀ d, d ≠ o.addressOf b → d ≠ c → o'.boxAt d = o.boxAt d
  itself : o'.box? b = (o.box? b).map fun box => { box with address := c }
  others : ∀ d, d ≠ b → o'.box? d = o.box? d
  closed : o'.closed = o.closed

theorem find?_eq_some_iff {d : BoxRef} : o.find? c = some d ↔ o.boxAt c = some d ∧ o.isOwned d := by
  rw [find?, Option.filter_eq_some_iff]

theorem find?_eq_none_iff : o.find? c = none ↔ o.contains c = false := by
  rw [contains, Option.isSome_eq_false_iff, Option.isNone_iff_eq_none]

/-- What the registry does on the way of a mailbox to its new address. -/
theorem moved_of_rekey (hb : o.isOwned b) (hk : o.rekey b (o.addressOf b) c = .ok o') :
    o.Moved b c (o'.modifyBox b fun box => { box with address := c }) := by
  obtain ⟨-, -, hboxes, hclosed, hat⟩ := rekey_eq_ok hk
  have hbox : ∀ d, (o'.modifyBox b fun box => { box with address := c }).box? d =
      if b = d then (o.box? d).map fun box => { box with address := c } else o.box? d := by
    intro d
    rw [box?_modifyBox, box?, hboxes]
    rfl
  refine ⟨?_, ?_, ?_, ?_, ?_, hclosed⟩
  · rw [find?_eq_some_iff]
    refine ⟨(hat c).trans (if_pos rfl), ?_⟩
    obtain ⟨box, hbox', howned⟩ := isOwned_iff.mp hb
    rw [isOwned, hbox, if_pos rfl, hbox']
    exact howned
  · intro hne
    have hgone : o'.boxAt (o.addressOf b) = none := by
      rw [hat, if_neg hne, if_pos rfl]
    change (o'.boxAt (o.addressOf b)).filter _ = none
    rw [hgone]
    rfl
  · intro d hd hdc
    change o'.boxAt d = _
    rw [hat, if_neg hdc, if_neg hd]
  · rw [hbox, if_pos rfl]
  · intro d hd
    rw [hbox, if_neg (Ne.symm hd)]

theorem Moved.addressOf (hm : o.Moved b c o') (hb : o.isOwned b) : o'.addressOf b = c := by
  obtain ⟨box, hbox⟩ := Option.isSome_iff_exists.mp (o.box?_isSome_of_isOwned hb)
  rw [Office.addressOf, hm.itself, hbox]
  rfl

/-- A mailbox with an owner moves where it is admitted to; otherwise the office stays as it was,
and there is something to object. -/
theorem readdress_law (hb : o.isOwned b) (hshut : o.closed → o.entries = []) (c : Address) :
    match o.readdress b c with
    | .ok o' => o.Admits b c ∧ o.Moved b c o'
    | .error e => ¬o.Admits b c ∧ e = o.objection b c := by
  by_cases hat : o.find? (o.addressOf b) = some b
  · have hkeyed := (find?_eq_some_iff.mp hat).1
    have hopen : o.closed = false := by
      refine Bool.eq_false_iff.mpr fun hclosed => ?_
      rw [boxAt, hshut hclosed] at hkeyed
      cases hkeyed
    unfold readdress
    simp only [hopen]
    cases hk : o.rekey b (o.addressOf b) c with
    | ok o' =>
      refine ⟨⟨hat, ?_⟩, moved_of_rekey hb hk⟩
      rcases Decidable.em (c = o.addressOf b) with hsame | hne
      · exact .inl hsame
      · exact .inr (find?_eq_none_iff.mpr ((rekey_eq_ok hk).2.1 (Ne.symm hne)))
    | error e =>
      unfold rekey at hk
      rw [if_neg (not_not.mpr hkeyed)] at hk
      split at hk
      · cases hk
      rename_i hne
      split at hk
      · rename_i htaken
        cases hk
        refine ⟨fun hadmits => ?_, (if_pos hat).symm⟩
        rcases hadmits.2 with hsame | hfree
        · exact hne hsame.symm
        · rw [find?_eq_none_iff.mp hfree] at htaken
          cases htaken
      · cases hk
  · have hlost : o.boxAt (o.addressOf b) ≠ some b :=
      fun hkeyed => hat (find?_eq_some_iff.mpr ⟨hkeyed, hb⟩)
    have hrefused : o.readdress b c = .error (.addressNotFound (o.addressOf b)) := by
      unfold readdress
      dsimp only
      split
      · rfl
      · rw [rekey, if_pos hlost]
        rfl
    rw [hrefused]
    exact ⟨fun hadmits => hat hadmits.1, (if_neg hat).symm⟩

end Office

/-! ## Renumbering an actor -/

namespace Pool

/-- The ID is one of the lower half, and mailbox `b` can move to where it leads. -/
def Accepts (p : Pool σ) (b : BoxRef) (id : ActorId) : Prop :=
  id.raw.toNat < 2 ^ 63 ∧ p.office.Admits b id.address

instance (p : Pool σ) (b : BoxRef) (id : ActorId) : Decidable (p.Accepts b id) :=
  inferInstanceAs (Decidable (_ ∧ _))

/-- What is reported of an ID that is not accepted. -/
def refusal (p : Pool σ) (b : BoxRef) (id : ActorId) : Event :=
  if id.address.isNamed then .idOutsideRange (p.office.addressOf b) id
  else .idRejected (p.office.addressOf b) id (p.office.objection b id.address)

/-- Actor `a`, whose mailbox is `b`, has another ID; the mailbox has moved along, the counter has
made way, and nothing else has changed. -/
structure Took (a : ActorRef) (b : BoxRef) (id : ActorId) (p q : Pool σ) : Prop where
  named : q.idOf a = some id ∧ q.addressOf a = id.address
  office : p.office.Moved b id.address q.office
  itself : q.actor? a = (p.actor? a).map fun x => { x with id := some id }
  others : ∀ c, c ≠ a → q.actor? c = p.actor? c
  counter : q.nextId.toNat = max p.nextId.toNat (id.raw.toNat + 1)
  rest : { q with office := p.office, actors := p.actors, nextId := p.nextId } = p

end Pool

namespace Act

variable {w : World σ} {a : ActorRef} {b : BoxRef} {x : Actor σ}

/-- What comes of it when actor `a`, whose mailbox is `b`, is told in `w` to take the ID `id`. -/
structure ObeysSetId (a : ActorRef) (b : BoxRef) (id : ActorId) (w : World σ)
    (r : Outcome × World σ) : Prop where
  /-- Whatever the batch sums up to so far, it goes on doing so. -/
  outcome : ∀ policy sum, BatchPolicy.fold policy sum r.1 = sum
  accepted_iff : r.2.log.back? = some (.renumbered id.address (w.pool.nameOf a)) ↔
    w.pool.Accepts b id
  accepted : w.pool.Accepts b id → w.pool.Took a b id r.2.pool ∧ r.2.env = w.env
  refused : ¬w.pool.Accepts b id → r.2 = w.report (w.pool.refusal b id)

theorem run_changeId (hx : w.pool.actor? a = some x) (id : ActorId) :
    ((changeId a id).run w).2 =
      if id.address.isNamed then w.report (.idOutsideRange (w.pool.office.addressOf x.box) id)
      else match w.pool.office.readdress x.box id.address with
        | .error e => w.report (.idRejected (w.pool.office.addressOf x.box) id e)
        | .ok o =>
          World.report
            { (if w.pool.office.addressOf x.box = id.address then w
                else w.report (.mailboxMoved (w.pool.office.addressOf x.box) id.address)) with
              pool := { w.pool.modifyActor a fun x => { x with id := some id } with
                office := o, nextId := max w.pool.nextId (id.raw + 1) } }
            (.renumbered id.address x.name) := by
  have haddress : w.pool.addressOf a = w.pool.office.addressOf x.box := by
    rw [Pool.addressOf, hx]
    rfl
  rw [changeId_eq, run_pool_bind, hx, haddress]
  dsimp only [Option.elim, takeId]
  split
  · rfl
  rw [run_bind, run_readdress]
  cases w.pool.office.readdress x.box id.address with
  | error e => rfl
  | ok o =>
    dsimp only
    split <;> rfl

theorem took_of_moved {p : Pool σ} (hx : p.actor? a = some x) (hb : p.office.isOwned x.box)
    {id : ActorId} (hlow : id.raw.toNat < 2 ^ 63) {o : Office σ.Value}
    (hm : p.office.Moved x.box id.address o) :
    p.Took a x.box id { p.modifyActor a fun x => { x with id := some id } with
      office := o, nextId := max p.nextId (id.raw + 1) } := by
  let q : Pool σ := { p.modifyActor a fun x => { x with id := some id } with
    office := o, nextId := max p.nextId (id.raw + 1) }
  have hactor : ∀ c, q.actor? c =
      if a = c then (p.actor? c).map fun x => { x with id := some id } else p.actor? c :=
    fun c => p.actor?_modifyActor a c _
  have hitself : q.actor? a = (p.actor? a).map fun x => { x with id := some id } :=
    (hactor a).trans (if_pos rfl)
  refine ⟨⟨?_, ?_⟩, hm, hitself, ?_, ActorId.toNat_max hlow p.nextId, rfl⟩
  · change q.idOf a = some id
    rw [Pool.idOf, hitself, hx]
    rfl
  · change q.addressOf a = id.address
    rw [Pool.addressOf, hitself, hx]
    exact hm.addressOf hb
  · intro c hc
    exact (hactor c).trans (if_neg (Ne.symm hc))

/-- All of it or nothing, when the office is open and the actor has a mailbox. -/
theorem obeys_setId (company : Company σ) (hp : w.pool.Lodged) (hb : w.pool.boxOf a = some b)
    (source : Option Address) (id : ActorId) :
    ObeysSetId a b id w ((handleMail company a ⟨source, .control (.setId id)⟩).run w) := by
  have hobey : handleMail company a ⟨source, .control (.setId id)⟩ =
      changeId a id >>= fun _ => pure .complete := rfl
  obtain ⟨x, hx, rfl⟩ := Option.map_eq_some_iff.mp hb
  have hname : w.pool.nameOf a = x.name := by
    rw [Pool.nameOf, hx]
    rfl
  have howned := hp.home a x.box hb
  have hshut : w.pool.office.closed → w.pool.office.entries = [] := by
    intro hclosed
    rw [hp.opened] at hclosed
    cases hclosed
  rw [hobey, run_bind, run_pure, run_changeId hx]
  cases hnamed : id.address.isNamed with
  | true =>
    rw [if_pos rfl]
    have hhigh : ¬w.pool.Accepts x.box id := by
      intro haccepts
      have hlow := (Address.isNamed_eq_false_iff id.address).mpr haccepts.1
      rw [hnamed] at hlow
      cases hlow
    refine ⟨fun _ _ => rfl, iff_of_false ?_ hhigh, fun h => absurd h hhigh, fun _ => ?_⟩
    · simp [World.report, Event.idOutsideRange, Event.renumbered]
    · rw [Pool.refusal, hnamed]
      rfl
  | false =>
    rw [if_neg Bool.false_ne_true]
    have hlow := (Address.isNamed_eq_false_iff id.address).mp hnamed
    have hlaw := Office.readdress_law howned hshut id.address
    cases hr : w.pool.office.readdress x.box id.address with
    | error e =>
      rw [hr] at hlaw
      have hrefused : ¬w.pool.Accepts x.box id := fun haccepts => hlaw.1 haccepts.2
      refine ⟨fun _ _ => rfl, iff_of_false ?_ hrefused, fun h => absurd h hrefused, fun _ => ?_⟩
      · simp [World.report, Event.idRejected, Event.renumbered]
      · rw [Pool.refusal, hnamed, ← hlaw.2]
        rfl
    | ok o =>
      rw [hr] at hlaw
      have haccepts : w.pool.Accepts x.box id := ⟨hlow, hlaw.1⟩
      refine ⟨fun _ _ => rfl, iff_of_true ?_ haccepts, fun _ => ⟨?_, ?_⟩, fun h => absurd haccepts h⟩
      · rw [hname]
        simp [World.report]
      · exact took_of_moved hx howned hlow hlaw.2
      · dsimp only [World.report]
        split <;> rfl

/-- What comes of it when mailbox `b` of an office in `w` is moved to `c` by itself. -/
structure Readdresses (b : BoxRef) (c : Address) (w : World σ) (r : Except Error Unit × World σ) :
    Prop where
  accepted : w.pool.office.Admits b c → r.1 = .ok () ∧
    w.pool.office.Moved b c r.2.pool.office ∧ { r.2.pool with office := w.pool.office } = w.pool ∧
    r.2.env = w.env
  refused : ¬w.pool.office.Admits b c → r = (.error (w.pool.office.objection b c), w)

theorem readdresses (hb : w.pool.office.isOwned b)
    (hshut : w.pool.office.closed → w.pool.office.entries = []) (c : Address) :
    Readdresses b c w ((readdress b c).run w) := by
  have hlaw := Office.readdress_law hb hshut c
  rw [run_readdress]
  cases hr : w.pool.office.readdress b c with
  | error e =>
    rw [hr] at hlaw
    refine ⟨fun h => absurd h hlaw.1, fun _ => ?_⟩
    rw [hlaw.2]
  | ok o =>
    rw [hr] at hlaw
    refine ⟨fun _ => ⟨rfl, hlaw.2, ?_, ?_⟩, fun h => absurd hlaw.1 h⟩ <;>
      · dsimp only
        split <;> rfl

end Act

open Act

/-- At any moment of any run: an actor that is told to take another ID takes it exactly if the ID is
one of the lower half, the actor has not lost its address, and no live mailbox but its own is where
the ID leads; the mailbox moves along with its letters and the counter makes way. If one of these
fails, nothing changes but the log. A mailbox that is moved by itself, in whatever office, keeps the
same law, as far as it is about mailboxes. -/
theorem renumbering_is_all_or_nothing :
    (∀ (company : Company σ) (config : Config) (env : σ.Env) (w : World σ),
      w.Occurs company config env →
        (∀ a b, w.pool.boxOf a = some b → ∀ source id,
          ObeysSetId a b id w ((handleMail company a ⟨source, .control (.setId id)⟩).run w)) ∧
        ∀ b, w.pool.office.isOwned b → ∀ c, Readdresses b c w ((readdress b c).run w)) ∧
      ∀ (es : List (Errand σ)) (d : District σ), District.play #[] es = some d → ∀ x ∈ d,
        ∀ b, x.office.isOwned b → ∀ c, Readdresses b c x.world ((readdress b c).run x.world) := by
  refine ⟨fun company config env w hw => ⟨fun a b hb source id => ?_, fun b hb c => ?_⟩,
    fun es d hplay x hx b hb c => ?_⟩
  · exact obeys_setId company hw.lodged hb source id
  · refine readdresses hb (fun hclosed => ?_) c
    rw [hw.lodged.opened] at hclosed
    cases hclosed
  · have hsound : ∀ x ∈ d, x.Sound := District.sound_play (by simp) hplay
    exact readdresses hb (hsound x hx).coherent.shut c

namespace Mute

/-- Two actors register, and the first is told to take another ID. -/
def renumberings : List (Routine signature) :=
  [register, register, post ⟨1⟩ (.setId ⟨7⟩), .drain 0]

/-- The first thing that it does about this. -/
def beginning : Visit signature := (visitsOf renumberings).get ⟨27, by decide +kernel⟩

/-- An office with two mailboxes. -/
def twoBoxes : List (Errand signature) := [.found {} (), .give 0 (.create ⟨1⟩), .give 0 (.create ⟨2⟩)]

end Mute

/-- An actor may take the ID 7, but not that of another actor; and a mailbox by itself may move to
address 7, but not to that of another mailbox. -/
theorem renumberings_all_or_nothing :
    (∃ w : World Mute.signature, w.Occurs Mute.company {} () ∧ w.pool.boxOf 0 = some 0 ∧
      (w.pool.Accepts 0 ⟨7⟩ ∧
        w.pool.Took 0 0 ⟨7⟩ ((handleMail Mute.company 0 (.ofControl (.setId ⟨7⟩))).run w).2.pool) ∧
      (¬w.pool.Accepts 0 ⟨2⟩ ∧ ((handleMail Mute.company 0 (.ofControl (.setId ⟨2⟩))).run w).2 =
        w.report (.idRejected ⟨1⟩ ⟨2⟩ (.addressInUse ⟨2⟩)))) ∧
      ∃ d, District.play #[] Mute.twoBoxes = some d ∧ ∃ x ∈ d,
        (((readdress 0 ⟨7⟩).run x.world).1 = .ok () ∧
          x.office.Moved 0 ⟨7⟩ ((readdress 0 ⟨7⟩).run x.world).2.pool.office) ∧
        (readdress 0 ⟨2⟩).run x.world = (.error (.addressInUse ⟨2⟩), x.world) := by
  have hlaw := renumbering_is_all_or_nothing (σ := Mute.signature)
  constructor
  · have hc : Mute.company.Postal := nofun
    have hoccurs : Mute.beginning.world.Occurs Mute.company {} () := .alone hc (List.get_mem _ _)
    have hb : Mute.beginning.world.pool.boxOf 0 = some 0 := by decide +kernel
    have hyes : Mute.beginning.world.pool.Accepts 0 ⟨7⟩ := by decide +kernel
    have hno : ¬Mute.beginning.world.pool.Accepts 0 ⟨2⟩ := by decide +kernel
    have hobey := (hlaw.1 Mute.company {} () _ hoccurs).1 0 0 hb none
    have hrefusal : Mute.beginning.world.pool.refusal 0 ⟨2⟩ =
        .idRejected ⟨1⟩ ⟨2⟩ (.addressInUse ⟨2⟩) := by
      decide +kernel
    refine ⟨_, hoccurs, hb, ⟨hyes, ((hobey ⟨7⟩).accepted hyes).1⟩, hno, ?_⟩
    rw [← hrefusal]
    exact (hobey ⟨2⟩).refused hno
  · obtain ⟨d, hd⟩ : ∃ d, District.play #[] Mute.twoBoxes = some d := ⟨_, rfl⟩
    cases hd
    refine ⟨_, rfl, _, Array.mem_of_getElem? (i := 0) rfl, ?_, ?_⟩
    · have hmoves := hlaw.2 Mute.twoBoxes _ rfl _ (Array.mem_of_getElem? (i := 0) rfl) 0
        (by decide +kernel) ⟨7⟩
      have hdone := hmoves.accepted (by decide +kernel)
      exact ⟨hdone.1, hdone.2.1⟩
    · have hstays := hlaw.2 Mute.twoBoxes _ rfl _ (Array.mem_of_getElem? (i := 0) rfl) 0
        (by decide +kernel) ⟨2⟩
      exact hstays.refused (by decide +kernel)

end ActorSystem
