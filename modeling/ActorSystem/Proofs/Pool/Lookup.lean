import ActorSystem.Atom
import ActorSystem.Proofs.Office.Lookup

/-!
# What accesses do to the lookups of a pool

A thread learns about a pool by looking things up, and most accesses leave most lookups alone.
For each lookup there is one equation here that says what every access does to it.

* `boxOf_effect`, `idOf_effect`, `phaseOf_effect`: the parts of an actor. An actor keeps its
  mailbox for ever.
* `mail_effect`: only `put` and `takeMail` change what is in a mailbox.
-/

namespace ActorSystem

variable {σ : Signature}

namespace Pool

/-- The mailbox of an actor. -/
def boxOf (p : Pool σ) (a : ActorRef) : Option BoxRef := (p.actor? a).map (·.box)

def phaseOf (p : Pool σ) (a : ActorRef) : Option Phase := (p.actor? a).map (·.phase)

variable {p : Pool σ} {a : ActorRef}

theorem isIdle_iff : p.isIdle a ↔ p.phaseOf a = some .idle := by
  unfold isIdle phaseOf
  cases p.actor? a <;> simp

theorem isSick_iff : p.isSick a ↔ p.phaseOf a = some .sick := by
  unfold isSick phaseOf Actor.isSick
  cases p.actor? a <;> simp

theorem boxOf_isSome_iff : (p.boxOf a).isSome ↔ a < p.actors.size := by
  simp [boxOf, actor?]

theorem phaseOf_isSome_iff : (p.phaseOf a).isSome ↔ a < p.actors.size := by
  simp [phaseOf, actor?]

theorem idOf_eq_none_of_size_le (h : p.actors.size ≤ a) : p.idOf a = none := by
  simp [idOf, actor?, Array.getElem?_eq_none h]

theorem mailOf_eq_nil_of_boxOf (h : p.boxOf a = none) : p.mailOf a = [] := by
  simp [mailOf, Option.map_eq_none_iff.mp h]

theorem mailOf_eq_of_boxOf {b : BoxRef} (h : p.boxOf a = some b) :
    p.mailOf a = p.office.mail b := by
  obtain ⟨x, hx, rfl⟩ := Option.map_eq_some_iff.mp h
  simp [mailOf, hx]

theorem addressOf_eq (p : Pool σ) (a : ActorRef) :
    p.addressOf a = ((p.boxOf a).map p.office.addressOf).getD ⟨0⟩ := by
  rw [addressOf, boxOf, Option.map_map]
  rfl

end Pool

namespace Atom

/-! ## Actors -/

/-- An access other than these leaves the actors alone. -/
theorem actors_effect (x : Atom σ) (w : World σ) :
    (x.effect w).pool.actors =
      match x with
      | alter f => (f w).pool.actors
      | claim a =>
        if w.pool.isIdle a then w.pool.actors.modify a fun x => { x with phase := .processing }
        else w.pool.actors
      | setRole a role => w.pool.actors.modify a fun x => { x with role }
      | setName a name => w.pool.actors.modify a fun x => { x with name }
      | setId a id => w.pool.actors.modify a fun x => { x with id := some id }
      | sicken a => w.pool.actors.modify a fun x => { x with phase := .sick }
      | dropId a => w.pool.actors.modify a fun x => { x with id := none }
      | finish a o =>
        if o = .poisoned then w.pool.actors
        else w.pool.actors.modify a fun x => { x with phase := .idle }
      | enroll x => w.pool.actors.push x
      | _ => w.pool.actors := by
  cases x with
  | createMailbox address =>
    simp only [effect]
    cases w.pool.office.create address <;> rfl
  | rekey b source target =>
    simp only [effect]
    cases w.pool.office.rekey b source target <;> rfl
  | takeMail a =>
    simp only [effect]
    cases (w.pool.actor? a).bind fun x => w.pool.office.poll x.box <;> rfl
  | claim a =>
    simp only [effect]
    split <;> rfl
  | finish a o =>
    simp only [effect]
    split <;> rfl
  | _ => rfl

theorem size_effect (x : Atom σ) (w : World σ) :
    (x.effect w).pool.actors.size =
      match x with
      | alter f => (f w).pool.actors.size
      | enroll _ => w.pool.actors.size + 1
      | _ => w.pool.actors.size := by
  rw [actors_effect]
  cases x <;> simp <;> split <;> simp

theorem part_modify {β : Type} (xs : Array (Actor σ)) (a c : ActorRef) (f : Actor σ → Actor σ)
    (part : Actor σ → β) :
    (xs.modify a f)[c]?.map part =
      if a = c then xs[c]?.map fun x => part (f x) else xs[c]?.map part := by
  rw [Array.getElem?_modify]
  split
  · rw [Option.map_map]; rfl
  · rfl

theorem part_modify_of_kept {β : Type} (xs : Array (Actor σ)) (a c : ActorRef)
    {f : Actor σ → Actor σ} {part : Actor σ → β} (h : ∀ x, part (f x) = part x) :
    (xs.modify a f)[c]?.map part = xs[c]?.map part := by
  rw [part_modify]
  simp only [h, ite_self]

theorem part_push {β : Type} (xs : Array (Actor σ)) (x : Actor σ) (c : ActorRef)
    (part : Actor σ → β) :
    (xs.push x)[c]?.map part = if c = xs.size then some (part x) else xs[c]?.map part := by
  rw [Array.getElem?_push]
  split <;> rfl

theorem boxOf_effect (x : Atom σ) (w : World σ) (c : ActorRef) :
    (x.effect w).pool.boxOf c =
      match x with
      | alter f => (f w).pool.boxOf c
      | enroll x => if c = w.pool.actors.size then some x.box else w.pool.boxOf c
      | _ => w.pool.boxOf c := by
  simp only [Pool.boxOf, Pool.actor?, actors_effect]
  cases x with
  | claim a =>
    dsimp only
    split
    · exact part_modify_of_kept _ _ _ fun _ => rfl
    · rfl
  | finish a o =>
    dsimp only
    split
    · rfl
    · exact part_modify_of_kept _ _ _ fun _ => rfl
  | setRole | setName | setId | sicken | dropId => exact part_modify_of_kept _ _ _ fun _ => rfl
  | enroll x => exact part_push _ _ _ _
  | _ => rfl

/-- Every actor is the new one or was there before. -/
theorem boxOf_enroll {x : Actor σ} {w : World σ} {a : ActorRef} {b : BoxRef}
    (h : ((enroll x).effect w).pool.boxOf a = some b) :
    (a = w.pool.actors.size ∧ b = x.box) ∨
      (a ≠ w.pool.actors.size ∧ w.pool.boxOf a = some b) := by
  rw [boxOf_effect] at h
  dsimp only at h
  split at h
  · cases h
    exact .inl ⟨‹_›, rfl⟩
  · exact .inr ⟨‹_›, h⟩

/-- A new actor with a mailbox that nobody has shares it with nobody. -/
theorem apart_enroll {x : Actor σ} {w : World σ}
    (hapart : ∀ a c b, w.pool.boxOf a = some b → w.pool.boxOf c = some b → a = c)
    (hfresh : ∀ a, w.pool.boxOf a ≠ some x.box) {a c : ActorRef} {b : BoxRef}
    (ha : ((enroll x).effect w).pool.boxOf a = some b)
    (hc : ((enroll x).effect w).pool.boxOf c = some b) : a = c := by
  rcases boxOf_enroll ha with ⟨rfl, rfl⟩ | ⟨-, ha⟩ <;>
    rcases boxOf_enroll hc with ⟨rfl, hb⟩ | ⟨-, hc⟩
  · rfl
  · exact absurd hc (hfresh c)
  · rw [hb] at ha
    exact absurd ha (hfresh a)
  · exact hapart a c b ha hc

theorem phaseOf_effect (x : Atom σ) (w : World σ) (c : ActorRef) :
    (x.effect w).pool.phaseOf c =
      match x with
      | alter f => (f w).pool.phaseOf c
      | claim a => if a = c ∧ w.pool.phaseOf a = some .idle then some .processing
        else w.pool.phaseOf c
      | sicken a => if a = c then (w.pool.phaseOf c).map fun _ => .sick else w.pool.phaseOf c
      | finish a o => if a = c ∧ o ≠ .poisoned then (w.pool.phaseOf c).map fun _ => .idle
        else w.pool.phaseOf c
      | enroll x => if c = w.pool.actors.size then some x.phase else w.pool.phaseOf c
      | _ => w.pool.phaseOf c := by
  cases x with
  | claim a =>
    simp only [← Pool.isIdle_iff]
    simp only [Pool.phaseOf, Pool.actor?, actors_effect]
    by_cases h : w.pool.isIdle a
    · obtain ⟨x, hx, -⟩ := Option.map_eq_some_iff.mp (Pool.isIdle_iff.mp h)
      simp only [h, if_true, and_true, part_modify]
      split
      · rename_i hac
        subst hac
        simp only [Pool.actor?] at hx
        rw [hx]; rfl
      · rfl
    · simp [h]
  | finish a o =>
    simp only [Pool.phaseOf, Pool.actor?, actors_effect]
    by_cases h : o = .poisoned
    · simp [h]
    · simp only [h, if_false, part_modify, ne_eq, not_false_eq_true, and_true, Option.map_map]
      rfl
  | sicken a =>
    simp only [Pool.phaseOf, Pool.actor?, actors_effect, part_modify, Option.map_map]
    rfl
  | setRole | setName | setId | dropId =>
    simp only [Pool.phaseOf, Pool.actor?, actors_effect]
    exact part_modify_of_kept _ _ _ fun _ => rfl
  | enroll x =>
    simp only [Pool.phaseOf, Pool.actor?, actors_effect]
    exact part_push _ _ _ _
  | _ =>
    simp only [Pool.phaseOf, Pool.actor?, actors_effect]

theorem idOf_effect (x : Atom σ) (w : World σ) (c : ActorRef) :
    (x.effect w).pool.idOf c =
      match x with
      | alter f => (f w).pool.idOf c
      | setId a id => if a = c then (w.pool.boxOf c).map fun _ => id else w.pool.idOf c
      | dropId a => if a = c then none else w.pool.idOf c
      | enroll x => if c = w.pool.actors.size then x.id else w.pool.idOf c
      | _ => w.pool.idOf c := by
  have joined : ∀ p : Pool σ, p.idOf c = ((p.actors[c]?).map (·.id)).join := by
    intro p
    simp only [Pool.idOf, Pool.actor?]
    cases p.actors[c]? <;> rfl
  simp only [joined, Pool.boxOf, Pool.actor?, actors_effect]
  cases x with
  | claim a =>
    dsimp only
    split
    · exact congrArg Option.join (part_modify_of_kept _ _ _ fun _ => rfl)
    · rfl
  | finish a o =>
    dsimp only
    split
    · rfl
    · exact congrArg Option.join (part_modify_of_kept _ _ _ fun _ => rfl)
  | setRole | setName | sicken =>
    exact congrArg Option.join (part_modify_of_kept _ _ _ fun _ => rfl)
  | setId a id =>
    dsimp only
    rw [part_modify]
    split
    · cases w.pool.actors[c]? <;> rfl
    · rfl
  | dropId a =>
    dsimp only
    rw [part_modify]
    split
    · cases w.pool.actors[c]? <;> rfl
    · rfl
  | enroll x =>
    dsimp only
    rw [part_push]
    split <;> rfl
  | _ => rfl

/-- The mailbox of a new actor is at the address of its ID, and the others are where they were. -/
theorem named_enroll {x : Actor σ} {w : World σ} {id : ActorId} (hx : x.id = some id)
    (hnamed : ∀ a b i, w.pool.boxOf a = some b → w.pool.idOf a = some i →
      w.pool.office.addressOf b = i.address)
    (haddress : w.pool.office.addressOf x.box = id.address)
    {a : ActorRef} {b : BoxRef} {i : ActorId}
    (ha : ((enroll x).effect w).pool.boxOf a = some b)
    (hi : ((enroll x).effect w).pool.idOf a = some i) : w.pool.office.addressOf b = i.address := by
  rw [idOf_effect] at hi
  dsimp only at hi
  rcases boxOf_enroll ha with ⟨rfl, rfl⟩ | ⟨hne, ha⟩
  · rw [if_pos rfl, hx] at hi
    cases hi
    exact haddress
  · rw [if_neg hne] at hi
    exact hnamed a b i ha hi

/-! ## Mailboxes -/

/-- An access other than these leaves the mailboxes alone. -/
theorem boxes_effect (x : Atom σ) (w : World σ) :
    (x.effect w).pool.office.boxes =
      match x with
      | alter f => (f w).pool.office.boxes
      | createMailbox address =>
        if w.pool.office.contains address then w.pool.office.boxes
        else w.pool.office.boxes.push { address }
      | put b m => w.pool.office.boxes.modify b (·.put m)
      | setAddress b address => w.pool.office.boxes.modify b fun box => { box with address }
      | takeMail a =>
        match (w.pool.actor? a).bind fun x => w.pool.office.poll x.box with
        | some (_, office) => office.boxes
        | none => w.pool.office.boxes
      | _ => w.pool.office.boxes := by
  cases x with
  | createMailbox address =>
    simp only [effect, Office.create]
    by_cases h : w.pool.office.contains address
    · simp [h]
    · simp [h]
      rfl
  | rekey b source target =>
    simp only [effect, Office.rekey]
    split
    · rename_i h
      split at h
      · cases h
      · split at h
        · cases h; rfl
        · split at h <;> cases h
          rfl
    · rfl
  | resolve address =>
    simp only [effect, Office.resolve]
    cases h : w.pool.office.boxAt address with
    | none => simp [World.modifyOffice, World.modifyPool, h]
    | some b =>
      simp only [World.modifyOffice, World.modifyPool, h]
      split <;> rfl
  | takeMail a =>
    simp only [effect]
    cases (w.pool.actor? a).bind fun x => w.pool.office.poll x.box <;> rfl
  | claim a =>
    simp only [effect]
    split <;> rfl
  | finish a o =>
    simp only [effect]
    split <;> rfl
  | _ => rfl

theorem box?_effect (x : Atom σ) (w : World σ) (b : BoxRef) :
    (x.effect w).pool.office.box? b =
      match x with
      | alter f => (f w).pool.office.box? b
      | createMailbox address =>
        if ¬w.pool.office.contains address ∧ b = w.pool.office.boxes.size then some { address }
        else w.pool.office.box? b
      | put c m => if c = b then (w.pool.office.box? b).map (·.put m) else w.pool.office.box? b
      | setAddress c address =>
        if c = b then (w.pool.office.box? b).map fun box => { box with address }
        else w.pool.office.box? b
      | takeMail a =>
        if w.pool.boxOf a = some b
          then (w.pool.office.box? b).map fun box => { box with queue := box.queue.tail }
        else w.pool.office.box? b
      | _ => w.pool.office.box? b := by
  cases x with
  | createMailbox address =>
    simp only [Office.box?, boxes_effect]
    by_cases h : w.pool.office.contains address
    · simp [h]
    · simp [h, Array.getElem?_push]
  | put c m => simp [Office.box?, boxes_effect, Array.getElem?_modify]
  | setAddress c address => simp [Office.box?, boxes_effect, Array.getElem?_modify]
  | takeMail a =>
    rw [Office.box?, boxes_effect]
    cases ha : w.pool.actor? a with
    | none => simp [Pool.boxOf, ha, Office.box?]
    | some x =>
      simp only [Pool.boxOf, ha, Option.bind_some, Option.map_some, Option.some.injEq, Office.poll]
      cases hm : w.pool.office.mail x.box with
      | nil =>
        dsimp only
        split
        · rename_i hb
          subst hb
          simp only [Office.mail, Office.box?] at hm
          simp only [Office.box?]
          cases hx : w.pool.office.boxes[x.box]? with
          | none => rfl
          | some box =>
            obtain ⟨address, queue, owned⟩ := box
            simp only [hx, Option.map_some, Option.getD_some] at hm
            simp [hm]
        · rfl
      | cons m rest =>
        dsimp only
        rw [← Office.box?, Office.box?_modifyBox]
        split
        · rename_i hb
          subst hb
          cases hx : w.pool.office.box? x.box with
          | none => rfl
          | some box => simp_all [Office.mail]
        · rfl
  | _ => simp only [Office.box?, boxes_effect]

theorem mail_effect (x : Atom σ) (w : World σ) (b : BoxRef) :
    (x.effect w).pool.office.mail b =
      match x with
      | alter f => (f w).pool.office.mail b
      | put c m => if c = b ∧ (w.pool.office.box? b).isSome then w.pool.office.mail b ++ [m]
        else w.pool.office.mail b
      | takeMail a => if w.pool.boxOf a = some b then (w.pool.office.mail b).tail
        else w.pool.office.mail b
      | _ => w.pool.office.mail b := by
  simp only [Office.mail, box?_effect]
  cases x with
  | createMailbox address =>
    dsimp only
    split
    · rename_i h
      simp [h.2, Office.box?]
    · rfl
  | put c m =>
    dsimp only
    cases w.pool.office.box? b <;> by_cases hc : c = b <;> simp [hc, Mailbox.put]
  | setAddress c address =>
    dsimp only
    cases w.pool.office.box? b <;> by_cases hc : c = b <;> simp [hc]
  | takeMail a =>
    dsimp only
    cases w.pool.office.box? b <;> by_cases ha : w.pool.boxOf a = some b <;> simp [ha]
  | _ => rfl

/-- Mailboxes stay. -/
theorem box?_isSome_effect {x : Atom σ} {w : World σ} {b : BoxRef} (hx : ∀ f, x ≠ alter f)
    (h : (w.pool.office.box? b).isSome) : ((x.effect w).pool.office.box? b).isSome := by
  rw [box?_effect]
  cases x with
  | alter f => exact absurd rfl (hx f)
  | createMailbox | put | setAddress | takeMail =>
    dsimp only
    split <;> simp [h]
  | _ => exact h

/-! ## What lies outside of the pool -/

theorem env_effect {x : Atom σ} (houtside : ∀ f, x ≠ outside f) (halter : ∀ f, x ≠ alter f)
    (w : World σ) : (x.effect w).env = w.env := by
  cases x with
  | outside f => exact absurd rfl (houtside f)
  | alter f => exact absurd rfl (halter f)
  | createMailbox address | rekey b source target | takeMail a | claim a | finish a o =>
    simp only [effect]
    split <;> rfl
  | _ => rfl

/-! ## The table -/

/-- What is neither in the actors nor in the post office. -/
theorem rest_effect {β : Type} (part : Pool σ → β)
    (hactors : ∀ (p : Pool σ) actors, part { p with actors } = part p)
    (hoffice : ∀ (p : Pool σ) office, part { p with office } = part p) (x : Atom σ) (w : World σ) :
    part (x.effect w).pool =
      match x with
      | alter f => part (f w).pool
      | lock op => part { w.pool with tableLock := w.pool.tableLock.after op }
      | enroll _ => part { w.pool with table := w.pool.table ++ [w.pool.actors.size] }
      | eraseSick => part { w.pool with table := w.pool.table.filter fun a => !w.pool.isSick a }
      | erase a => part { w.pool with table := w.pool.table.erase a }
      | reserve id => part { w.pool with nextId := max w.pool.nextId (id.raw + 1) }
      | _ => part w.pool := by
  cases x with
  | createMailbox address =>
    simp only [effect]
    cases w.pool.office.create address with
    | ok made => exact hoffice _ _
    | error e => rfl
  | rekey b source target =>
    simp only [effect]
    cases w.pool.office.rekey b source target with
    | ok office => exact hoffice _ _
    | error e => rfl
  | takeMail a =>
    simp only [effect]
    cases (w.pool.actor? a).bind fun x => w.pool.office.poll x.box with
    | some taken => exact hoffice _ _
    | none => rfl
  | claim a =>
    simp only [effect]
    split
    · exact hactors _ _
    · rfl
  | finish a o =>
    simp only [effect]
    split
    · rfl
    · exact hactors _ _
  | resolve | put | setAddress | revoke => exact hoffice _ _
  | setRole | setName | setId | sicken | dropId => exact hactors _ _
  | enroll x => exact hactors { w.pool with table := w.pool.table ++ [w.pool.actors.size] } _
  | _ => rfl

theorem table_effect (x : Atom σ) (w : World σ) :
    (x.effect w).pool.table =
      match x with
      | alter f => (f w).pool.table
      | enroll _ => w.pool.table ++ [w.pool.actors.size]
      | eraseSick => w.pool.table.filter fun a => !w.pool.isSick a
      | erase a => w.pool.table.erase a
      | _ => w.pool.table := by
  rw [rest_effect (·.table) (fun _ _ => rfl) (fun _ _ => rfl)]
  cases x <;> rfl

theorem tableLock_effect (x : Atom σ) (w : World σ) :
    (x.effect w).pool.tableLock =
      match x with
      | alter f => (f w).pool.tableLock
      | lock op => w.pool.tableLock.after op
      | _ => w.pool.tableLock := by
  rw [rest_effect (·.tableLock) (fun _ _ => rfl) (fun _ _ => rfl)]
  cases x <;> rfl

theorem nextId_effect (x : Atom σ) (w : World σ) :
    (x.effect w).pool.nextId =
      match x with
      | alter f => (f w).pool.nextId
      | reserve id => max w.pool.nextId (id.raw + 1)
      | _ => w.pool.nextId := by
  rw [rest_effect (·.nextId) (fun _ _ => rfl) (fun _ _ => rfl)]
  cases x <;> rfl

/-- The settings never change. -/
theorem config_effect {x : Atom σ} (hx : ∀ f, x ≠ alter f) (w : World σ) :
    (x.effect w).pool.config = w.pool.config := by
  rw [rest_effect (·.config) (fun _ _ => rfl) (fun _ _ => rfl)]
  cases x with
  | alter f => exact absurd rfl (hx f)
  | _ => rfl

end Atom

end ActorSystem
