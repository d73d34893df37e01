import ActorSystem.Proofs.Office.Dependable
import ActorSystem.Proofs.Reach.Sound

/-!
# Papers in order

The identity of an actor is written down three times: its ID, the address that its mailbox
remembers, and the entry of the registry. `Pool.InOrder` says how the three agree between one
message and the next, whatever happens to the registry meanwhile: others may take an actor's
address away and settle there themselves.

* `InOrder.edit`: an edit of the post office that leaves the actors' mailboxes alone.
* `InOrder.enroll`, `InOrder.renumber`, `InOrder.halt`: a new actor, and what an actor does to its
  own papers.
* `changeId_pool`, `makeSick_pool`: the acts behind these, as functions of the pool.
-/

namespace ActorSystem

variable {σ : Signature}

namespace Pool

structure InOrder (who : Option ActorRef) (p : Pool σ) : Prop where
  opened : p.office.closed = false
  office : p.office.Coherent
  home : ∀ a b, p.boxOf a = some b → p.office.isOwned b
  apart : ∀ a c b, p.boxOf a = some b → p.boxOf c = some b → a = c
  named : ∀ a b id, p.boxOf a = some b → p.idOf a = some id → p.office.addressOf b = id.address
  stopped : ∀ a, (p.boxOf a).isSome → (p.idOf a = none ↔ p.isSick a)
  detached : ∀ a b c, p.boxOf a = some b → p.idOf a = none → (c, b) ∉ p.office.entries
  /-- The actor that is being drained has not stopped. -/
  awake : ∀ a, who = some a → (p.idOf a).isSome

/-- A mailbox that somebody owns, but no actor. -/
def isSpare (p : Pool σ) (b : BoxRef) : Bool :=
  p.office.isOwned b && p.actors.all fun x => x.box ≠ b

theorem isSpare_iff {p : Pool σ} {b : BoxRef} :
    p.isSpare b ↔ p.office.isOwned b ∧ ∀ a, p.boxOf a ≠ some b := by
  have hactors : (p.actors.all fun x => x.box ≠ b) ↔ ∀ a, p.boxOf a ≠ some b := by
    simp only [Array.all_eq_true, decide_eq_true_eq, boxOf, actor?]
    constructor
    · intro hall a ha
      obtain ⟨x, hx, hxb⟩ := Option.map_eq_some_iff.mp ha
      obtain ⟨ha, rfl⟩ := Array.getElem?_eq_some_iff.mp hx
      exact hall a ha hxb
    · intro hall a ha hxb
      exact hall a (by rw [Array.getElem?_eq_getElem ha, Option.map_some, hxb])
  rw [isSpare, Bool.and_eq_true, hactors]

namespace InOrder

variable {who : Option ActorRef} {p q : Pool σ} {a : ActorRef} {b : BoxRef} {id : ActorId}

theorem empty (config : Config) : InOrder none ({ config } : Pool σ) := by
  have hnone : ∀ a, ({ config } : Pool σ).boxOf a = none := fun a => by simp [boxOf, actor?]
  refine ⟨rfl, ⟨List.nodup_nil, ?_, fun _ => rfl⟩, ?_, ?_, ?_, ?_, ?_, ?_⟩
  · intro a b hb
    cases hb
  · intro a b hb
    simp [hnone] at hb
  · intro a c b hb
    simp [hnone] at hb
  · intro a b id hb
    simp [hnone] at hb
  · intro a ha
    simp [hnone] at ha
  · intro a b c hb
    simp [hnone] at hb
  · intro a ha
    cases ha

theorem forget (h : InOrder who p) : InOrder none p := { h with awake := nofun }

theorem registered (h : InOrder (some a) p) : ∃ b, p.boxOf a = some b := by
  obtain ⟨id, hid⟩ := Option.isSome_iff_exists.mp (h.awake a rfl)
  obtain ⟨x, hx, -⟩ := Option.bind_eq_some_iff.mp hid
  exact ⟨x.box, by rw [boxOf, hx]; rfl⟩

/-- An actor of the pool that has not stopped has an ID. -/
theorem exists_id (h : InOrder who p) (hb : p.boxOf a = some b) (hwell : p.isSick a = false) :
    ∃ id, p.idOf a = some id := by
  refine Option.ne_none_iff_exists'.mp fun hn => ?_
  have hsick := (h.stopped a (by rw [hb]; rfl)).mp hn
  rw [hwell] at hsick
  cases hsick

/-! ## Edits of the post office -/

/-- Whatever is done to the post office, the papers stay in order if the mailboxes of actors stay
where they are. -/
theorem edit (h : InOrder who p) (hoffice : Office.Edited p.office q.office)
    (hbox : ∀ a, q.boxOf a = p.boxOf a) (hid : ∀ a, q.idOf a = p.idOf a)
    (hsick : ∀ a, q.isSick a = p.isSick a)
    (hkept : ∀ a b, p.boxOf a = some b → q.office.isOwned b = p.office.isOwned b ∧
      q.office.addressOf b = p.office.addressOf b) : InOrder who q := by
  refine ⟨hoffice.closed_eq.trans h.opened, hoffice.coherent h.office, ?_, ?_, ?_, ?_, ?_, ?_⟩
  · intro a b hb
    rw [hbox] at hb
    rw [(hkept a b hb).1]
    exact h.home a b hb
  · intro a c b ha hc
    rw [hbox] at ha hc
    exact h.apart a c b ha hc
  · intro a b id hb hi
    rw [hbox] at hb
    rw [hid] at hi
    rw [(hkept a b hb).2]
    exact h.named a b id hb hi
  · intro a ha
    rw [hbox] at ha
    rw [hid, hsick]
    exact h.stopped a ha
  · intro a b c hb hi
    rw [hbox] at hb
    rw [hid] at hi
    -- a mailbox without an entry gets none
    have hold : b < p.office.boxes.size := p.office.lt_size_of_isOwned (h.home a b hb)
    exact hoffice.inherits.detached hold (fun d => h.detached a b d hb hi) c
  · intro a ha
    rw [hid]
    exact h.awake a ha

/-- The same for what touches nothing but the post office. -/
theorem editOffice (h : InOrder who p) (hoffice : Office.Edited p.office q.office)
    (hactors : q.actors = p.actors)
    (hkept : ∀ a b, p.boxOf a = some b → q.office.isOwned b = p.office.isOwned b ∧
      q.office.addressOf b = p.office.addressOf b) : InOrder who q := by
  refine h.edit hoffice ?_ ?_ ?_ hkept
  · intro a
    simp only [boxOf, actor?, hactors]
  · intro a
    simp only [idOf, actor?, hactors]
  · intro a
    simp only [isSick, actor?, hactors]

end InOrder

end Pool

namespace Atom

variable {x : Atom σ} {w : World σ}

theorem edited_quiet (hx : x.quiet) :
    Office.Edited w.pool.office (x.effect w).pool.office := by
  cases x with
  | alter | createMailbox | rekey | setAddress | revoke => cases hx
  | setId | sicken | dropId | finish | enroll => cases hx
  | resolve c => exact .resolve _ _
  | put b m => exact .put _ _ _
  | takeMail a =>
    simp only [effect]
    cases hp : (w.pool.actor? a).bind fun x => w.pool.office.poll x.box with
    | none => exact .refl _
    | some taken =>
      obtain ⟨y, -, hpoll⟩ := Option.bind_eq_some_iff.mp hp
      exact .poll hpoll
  | claim a =>
    simp only [effect]
    split <;> exact .refl _
  | _ => exact .refl _

/-- No quiet access stops an actor, or wakes one that has stopped. -/
theorem isSick_quiet (hx : x.quiet) (a : ActorRef) :
    (x.effect w).pool.isSick a = w.pool.isSick a := by
  rw [Bool.eq_iff_iff, Pool.isSick_iff, Pool.isSick_iff, phaseOf_effect]
  cases x with
  | alter | createMailbox | rekey | setAddress | revoke => cases hx
  | setId | sicken | dropId | finish | enroll => cases hx
  | claim c =>
    dsimp only
    split
    · rename_i hc
      obtain ⟨rfl, hidle⟩ := hc
      rw [hidle]
      simp
    · rfl
  | _ => rfl

end Atom

namespace Pool.InOrder

variable {who : Option ActorRef} {w : World σ}

theorem quiet (h : InOrder who w.pool) {x : Atom σ} (hx : x.quiet) :
    InOrder who (x.effect w).pool := by
  refine h.edit (Atom.edited_quiet hx) ?_ ?_ (Atom.isSick_quiet hx)
    fun _ b _ => Atom.mailbox_quiet hx b
  · intro a
    rw [Atom.boxOf_effect]
    cases x <;> first | rfl | cases hx
  · intro a
    rw [Atom.idOf_effect]
    cases x <;> first | rfl | cases hx

variable {p : Pool σ} {a : ActorRef} {b : BoxRef} {id : ActorId} {o : Office σ.Value}

theorem revoke (h : InOrder who p) (c : Address) :
    InOrder who { p with office := p.office.eraseEntry c } :=
  h.editOffice (.eraseEntry _ _) rfl fun _ _ _ => ⟨rfl, rfl⟩

/-- A new mailbox is spare. -/
theorem create (h : InOrder who p) {c : Address} (hc : p.office.create c = .ok (b, o)) :
    InOrder who { p with office := o } ∧ Pool.isSpare { p with office := o } b ∧
      o.addressOf b = c := by
  have hnew : o.box? b = some { address := c } := by
    rw [Office.box?_create hc, if_pos rfl]
  have hkept : ∀ a d, p.boxOf a = some d → d ≠ b ∧ o.box? d = p.office.box? d :=
    fun a d hd => Office.isOwned_create hc (h.home a d hd)
  refine ⟨h.editOffice (.create h.opened hc) rfl fun a d hd => ?_, ?_, ?_⟩
  · simp only [Office.isOwned, Office.addressOf, (hkept a d hd).2, and_self]
  · refine Pool.isSpare_iff.mpr ⟨by simp [Office.isOwned, hnew], fun a ha => ?_⟩
    exact (hkept a b ha).1 rfl
  · simp [Office.addressOf, hnew]

/-! ## A new actor -/

theorem enroll (h : InOrder who w.pool) {x : Actor σ} (hid : x.id = some id)
    (hidle : x.phase = .idle) (hb : w.pool.isSpare x.box)
    (haddress : w.pool.office.addressOf x.box = id.address) :
    InOrder who ((Atom.enroll x).effect w).pool := by
  obtain ⟨howned, hfresh⟩ := Pool.isSpare_iff.mp hb
  have hids : ∀ c, ((Atom.enroll x).effect w).pool.idOf c =
      if c = w.pool.actors.size then some id else w.pool.idOf c := by
    intro c
    rw [← hid]
    exact Atom.idOf_effect (.enroll x) w c
  have hsick : ∀ c, c ≠ w.pool.actors.size →
      ((Atom.enroll x).effect w).pool.isSick c = w.pool.isSick c := by
    intro c hc
    rw [Bool.eq_iff_iff, Pool.isSick_iff, Pool.isSick_iff, Atom.phaseOf_effect]
    exact Eq.congr_left (if_neg hc)
  refine ⟨h.opened, h.office, ?_, ?_, ?_, ?_, ?_, ?_⟩
  · intro c d hd
    rcases Atom.boxOf_enroll hd with ⟨-, rfl⟩ | ⟨-, hd⟩
    · exact howned
    · exact h.home c d hd
  · exact fun c e d => Atom.apart_enroll h.apart hfresh
  · exact fun c d i => Atom.named_enroll hid h.named haddress
  · intro c hc
    obtain ⟨d, hd⟩ := Option.isSome_iff_exists.mp hc
    rw [hids]
    rcases Atom.boxOf_enroll hd with ⟨rfl, -⟩ | ⟨hne, hd⟩
    · rw [if_pos rfl, Pool.isSick_iff, Atom.phaseOf_effect]
      refine iff_of_false (by simp) ?_
      change ¬(if w.pool.actors.size = w.pool.actors.size then some x.phase else _) = _
      rw [if_pos rfl, hidle]
      simp
    · rw [if_neg hne, hsick c hne]
      exact h.stopped c (by rw [hd]; rfl)
  · intro c d e hd hi
    rw [hids] at hi
    rcases Atom.boxOf_enroll hd with ⟨rfl, -⟩ | ⟨hne, hd⟩
    · rw [if_pos rfl] at hi
      cases hi
    · rw [if_neg hne] at hi
      exact h.detached c d e hd hi
  · intro c hc
    rw [hids]
    split
    · rfl
    · exact h.awake c hc

end Pool.InOrder

/-! ## What an actor does to its own papers -/

namespace Pool

/-- The pool after actor `a` was told to take the ID `id`. -/
def renumbered (p : Pool σ) (a : ActorRef) (id : ActorId) : Pool σ :=
  match p.actor? a with
  | none => p
  | some x =>
    if id.address.isNamed then p
    else match p.office.readdress x.box id.address with
      | .error _ => p
      | .ok office =>
        { p.modifyActor a fun x => { x with id := some id } with
          office, nextId := max p.nextId (id.raw + 1) }

/-- The pool after actor `a` has stopped. -/
def halted (p : Pool σ) (a : ActorRef) : Pool σ :=
  { p.modifyActor a Actor.stopped with office := p.office.eraseEntry (p.addressOf a) }

end Pool

namespace Act

theorem run_pool_bind {α : Type} (f : Pool σ → Act σ α) (w : World σ) :
    run (pool >>= f) w = run (f w.pool) w := rfl

theorem changeId_pool (a : ActorRef) (id : ActorId) (w : World σ) :
    ((changeId a id).run w).2.pool = w.pool.renumbered a id := by
  rw [changeId, run_pool_bind, Pool.renumbered]
  cases w.pool.actor? a with
  | none => rfl
  | some x =>
    dsimp only
    split
    · rfl
    · rw [run_bind, run_readdress]
      cases w.pool.office.readdress x.box id.address with
      | error e => rfl
      | ok o =>
        dsimp only
        split <;> rfl

theorem revokeFor_pool (r : Revoker) (c : Address) (w : World σ) :
    ((revokeFor r c).run w).2.pool = { w.pool with office := w.pool.office.eraseEntry c } := by
  let told (removed : Bool) : Act σ Bool := do
    if removed then report (.addressRevoked c)
    return removed
  have hrun : (revokeFor r c).run w =
      (told (w.pool.office.boxAt c).isSome).run (w.modifyOffice (·.eraseEntry c)) := rfl
  rw [hrun]
  cases (w.pool.office.boxAt c).isSome <;> rfl

theorem makeSick_pool (a : ActorRef) (w : World σ) :
    ((makeSick a).run w).2.pool = w.pool.halted a := by
  have hactors : (w.pool.actors.modify a fun x => { x with phase := .sick }).modify a
      (fun x => { x with id := none }) = w.pool.actors.modify a Actor.stopped := by
    apply Array.ext_getElem?
    intro c
    simp only [Array.getElem?_modify]
    split
    · rw [Option.map_map]
      rfl
    · rfl
  have hstopped : ((Atom.dropId a).effect ((Atom.sicken a).effect w)).pool =
      w.pool.modifyActor a Actor.stopped := by
    rw [Pool.modifyActor, ← hactors]
    rfl
  have haddress : (w.pool.modifyActor a Actor.stopped).addressOf a = w.pool.addressOf a := by
    rw [← hstopped, Pool.addressOf_eq, Pool.addressOf_eq, Atom.boxOf_effect, Atom.boxOf_effect]
    rfl
  calc ((makeSick a).run w).2.pool
      = ((do
          let _ ← revokeFor (.actor a) ((← pool).addressOf a)
          let p ← pool
          report (.actorPoisoned (p.addressOf a) (p.nameOf a))).run
            ((Atom.dropId a).effect ((Atom.sicken a).effect w))).2.pool := rfl
    _ = w.pool.halted a := by
      rw [run_pool_bind, run_bind, hstopped, haddress]
      change ((revokeFor _ _).run _).2.pool = _
      rw [revokeFor_pool, hstopped]
      rfl

end Act

/-- What moves a mailbox leaves all mailboxes to their owners, and the others where they are. -/
theorem Office.mailbox_readdress {V : Type} {o o' : Office V} {b : BoxRef} {c : Address}
    (hb : o.isOwned b) (h : o.readdress b c = .ok o') (d : BoxRef) :
    o'.isOwned d = o.isOwned d ∧ o'.addressOf d = if d = b then c else o.addressOf d := by
  unfold Office.readdress at h
  dsimp only at h
  split at h
  · cases h
  cases hk : o.rekey b (o.addressOf b) c with
  | error e =>
    rw [hk] at h
    cases h
  | ok k =>
    rw [hk] at h
    cases h
    have hbox : k.box? d = o.box? d := by
      rw [Office.box?, (Office.rekey_eq_ok hk).2.2.1]
      rfl
    simp only [Office.isOwned, Office.addressOf, Office.box?_modifyBox, hbox]
    by_cases hd : d = b
    · obtain ⟨box, hbox⟩ := Option.isSome_iff_exists.mp (o.box?_isSome_of_isOwned hb)
      simp [hd, hbox]
    · rw [if_neg (Ne.symm hd), if_neg hd]
      exact ⟨rfl, rfl⟩

namespace Pool

theorem actor?_modifyActor (p : Pool σ) (a c : ActorRef) (f : Actor σ → Actor σ) :
    (p.modifyActor a f).actor? c = if a = c then (p.actor? c).map f else p.actor? c :=
  Array.getElem?_modify

theorem boxOf_modifyActor (p : Pool σ) (a c : ActorRef) {f : Actor σ → Actor σ}
    (hf : ∀ x, (f x).box = x.box) : (p.modifyActor a f).boxOf c = p.boxOf c :=
  Atom.part_modify_of_kept p.actors a c hf

theorem isSick_modifyActor (p : Pool σ) (a c : ActorRef) {f : Actor σ → Actor σ}
    (hf : ∀ x, (f x).phase = x.phase) : (p.modifyActor a f).isSick c = p.isSick c := by
  rw [Bool.eq_iff_iff, isSick_iff, isSick_iff]
  exact Eq.congr_left (Atom.part_modify_of_kept p.actors a c hf)

theorem idOf_modifyActor (p : Pool σ) (a c : ActorRef) (f : Actor σ → Actor σ) :
    (p.modifyActor a f).idOf c =
      if c = a then (p.actor? a).bind fun x => (f x).id else p.idOf c := by
  rw [idOf, actor?_modifyActor]
  by_cases hc : c = a
  · rw [if_pos hc.symm, if_pos hc, hc, Option.bind_map]
    rfl
  · rw [if_neg (Ne.symm hc), if_neg hc]
    rfl

/-- A stopped actor has stopped, and the others are as they were. -/
theorem isSick_halted (p : Pool σ) (a c : ActorRef) (hc : (p.boxOf c).isSome) :
    (p.halted a).isSick c ↔ c = a ∨ p.isSick c := by
  obtain ⟨y, hy⟩ := Option.isSome_iff_exists.mp (Option.isSome_map.symm.trans hc)
  change (p.modifyActor a Actor.stopped).isSick c ↔ _
  rw [isSick, actor?_modifyActor]
  by_cases hca : c = a
  · rw [if_pos hca.symm, hy]
    simp [hca, Actor.stopped, Actor.isSick]
  · rw [if_neg (Ne.symm hca)]
    simp [hca, isSick]

/-- An actor that is told to take another ID takes it, its mailbox moves along, and the counter
makes way; or nothing happens. -/
theorem renumbered_cases (p : Pool σ) (a : ActorRef) (id : ActorId) :
    p.renumbered a id = p ∨ ∃ x o, p.actor? a = some x ∧ id.address.isNamed = false ∧
      p.office.readdress x.box id.address = .ok o ∧
      p.renumbered a id = { p.modifyActor a fun x => { x with id := some id } with
        office := o, nextId := max p.nextId (id.raw + 1) } := by
  unfold renumbered
  cases hx : p.actor? a with
  | none => exact .inl rfl
  | some x =>
    dsimp only
    cases hn : id.address.isNamed with
    | true => exact .inl rfl
    | false =>
      cases hr : p.office.readdress x.box id.address with
      | error e => exact .inl rfl
      | ok o => exact .inr ⟨x, o, rfl, rfl, hr, rfl⟩

theorem isSick_renumbered (p : Pool σ) (a c : ActorRef) (id : ActorId) :
    (p.renumbered a id).isSick c = p.isSick c := by
  rcases p.renumbered_cases a id with hq | ⟨x, o, -, -, -, hq⟩
  · rw [hq]
  · rw [hq]
    exact p.isSick_modifyActor a c fun _ => rfl

namespace InOrder

variable {p : Pool σ} {a : ActorRef}

/-- A renumbered actor gives its mailbox the same new address, and nothing changes for the
others. -/
theorem renumber (h : InOrder (some a) p) (id : ActorId) : InOrder (some a) (p.renumbered a id) := by
  rcases p.renumbered_cases a id with hq | ⟨x, o, hx, -, hr, hq⟩
  · rwa [hq]
  rw [hq]
  have hbox : p.boxOf a = some x.box := by
    rw [boxOf, hx]
    rfl
  have hmoved := Office.mailbox_readdress (h.home a x.box hbox) hr
  have hedited : Office.Edited p.office o := .readdress hr
  -- the actors by themselves
  let q := p.modifyActor a fun x => { x with id := some id }
  have hboxes : ∀ c, q.boxOf c = p.boxOf c := fun c => p.boxOf_modifyActor a c fun _ => rfl
  have hids : ∀ c, q.idOf c = if c = a then some id else p.idOf c := by
    intro c
    rw [idOf_modifyActor, hx]
    rfl
  refine ⟨hedited.closed_eq.trans h.opened, hedited.coherent h.office, ?_, ?_, ?_, ?_, ?_, ?_⟩
  · intro c d hd
    rw [(hmoved d).1]
    exact h.home c d ((hboxes c).symm.trans hd)
  · intro c e d hc he
    exact h.apart c e d ((hboxes c).symm.trans hc) ((hboxes e).symm.trans he)
  · intro c d i hd hi
    replace hd := (hboxes c).symm.trans hd
    replace hi := (hids c).symm.trans hi
    rw [(hmoved d).2]
    by_cases hc : c = a
    · rw [if_pos hc] at hi
      rw [hc, hbox] at hd
      cases hi
      cases hd
      exact if_pos rfl
    · rw [if_neg hc] at hi
      have hdb : d ≠ x.box := by
        rintro rfl
        exact hc (h.apart c a _ hd hbox)
      rw [if_neg hdb]
      exact h.named c d i hd hi
  · intro c hc
    have hsick : q.isSick c = p.isSick c := p.isSick_modifyActor a c fun _ => rfl
    refine Iff.trans ?_ (Bool.eq_iff_iff.mp hsick).symm
    change q.idOf c = none ↔ _
    have hold := h.stopped c ((congrArg Option.isSome (hboxes c)).symm.trans hc)
    rw [hids]
    by_cases hca : c = a
    · have hawake := Option.isSome_iff_ne_none.mp (h.awake a rfl)
      rw [if_pos hca, ← hold, hca]
      simp [hawake]
    · rwa [if_neg hca]
  · intro c d e hd hi
    replace hd := (hboxes c).symm.trans hd
    replace hi := (hids c).symm.trans hi
    have hca : c ≠ a := by
      rintro rfl
      rw [if_pos rfl] at hi
      cases hi
    rw [if_neg hca] at hi
    have hlt := p.office.lt_size_of_isOwned (h.home c d hd)
    exact hedited.inherits.detached hlt (fun f => h.detached c d f hd hi) e
  · rintro c ⟨⟩
    change (q.idOf a).isSome
    rw [hids, if_pos rfl]
    rfl

/-- A stopped actor has no ID and no entry. -/
theorem halt (h : InOrder (some a) p) : InOrder none (p.halted a) := by
  obtain ⟨b, hb⟩ := h.registered
  let q := p.modifyActor a Actor.stopped
  have hboxes : ∀ c, q.boxOf c = p.boxOf c := fun c => p.boxOf_modifyActor a c fun _ => rfl
  have hids : ∀ c, q.idOf c = if c = a then none else p.idOf c := by
    intro c
    rw [idOf_modifyActor]
    cases p.actor? a <;> rfl
  refine ⟨h.opened, h.office.eraseEntry, ?_, ?_, ?_, ?_, ?_, nofun⟩
  · intro c d hd
    exact h.home c d ((hboxes c).symm.trans hd)
  · intro c e d hc he
    exact h.apart c e d ((hboxes c).symm.trans hc) ((hboxes e).symm.trans he)
  · intro c d i hd hi
    replace hi := (hids c).symm.trans hi
    split at hi
    · cases hi
    · exact h.named c d i ((hboxes c).symm.trans hd) hi
  · intro c hc
    replace hc := (congrArg Option.isSome (hboxes c)).symm.trans hc
    rw [p.isSick_halted a c hc]
    change q.idOf c = none ↔ _
    rw [hids, ← h.stopped c hc]
    by_cases hca : c = a <;> simp [hca]
  · intro c d e hd hi hed
    replace hd := (hboxes c).symm.trans hd
    replace hi := (hids c).symm.trans hi
    obtain ⟨hed, hne⟩ := Office.mem_entries_eraseEntry.mp hed
    by_cases hca : c = a
    · -- the entry of its mailbox would be at the address that went
      rw [hca, hb] at hd
      cases hd
      rw [addressOf_eq, hb] at hne
      exact hne (h.office.addressOf hed).symm
    · rw [if_neg hca] at hi
      exact h.detached c d e hd hi hed

end InOrder

end Pool

end ActorSystem
