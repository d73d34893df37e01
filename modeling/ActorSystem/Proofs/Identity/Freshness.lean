import ActorSystem.Proofs.Identity.Range

/-!
# No ID is given away twice

The counter shows the ID of the next actor. It makes way for every ID that an actor gets, whether
with its registration or by a message, and never goes back. So the IDs of all actors there have ever
been are below it, and the one that a new actor gets has been nobody's before. All this goes for a
counter that does not run over.

A registration that is refused leaves everything as it was, and the counter with it: the ID that it
did not get is the next one still.

* `Numbered`: the invariant, for any bound between the IDs given away so far and those to come.
* `run_register`: the whole of a registration.
* `ids_are_never_reused`: what comes of both.
-/

namespace ActorSystem

variable {σ : Signature} {α : Type}

/-! ## The bound -/

/-- Some actor has this ID. -/
def Pool.Has (p : Pool σ) (id : ActorId) : Prop := ∃ a, p.idOf a = some id

/-- Some actor has this ID when the access is made, or gets it by the access. -/
def Visit.Shows (v : Visit σ) (id : ActorId) : Prop := v.world.pool.Has id ∨ v.given = some id

/-- The counter is to make way for the last number there is, and begins again at zero. -/
def Visit.overflows (v : Visit σ) : Bool :=
  match v.atom with
  | .reserve id => id.raw + 1 == 0
  | _ => false

theorem Visit.given_of_newId {v : Visit σ} {id : ActorId} (h : v.newId = some id) :
    v.given = some id := by
  obtain ⟨w, x⟩ := v
  cases x <;> first | exact h | cases h

/-- What the counter showed at each access, and what it shows now. -/
def counts (h : List (Visit σ)) (w : World σ) : List UInt64 :=
  h.map (·.world.pool.nextId) ++ [w.pool.nextId]

theorem ActorId.lt_max {id : ActorId} (h : id.raw + 1 ≠ 0) (m : UInt64) :
    id.raw < max m (id.raw + 1) := by
  have hnext : id.raw < id.raw + 1 := by
    have hadd : (id.raw + 1).toNat = (id.raw.toNat + 1) % 2 ^ 64 := by rw [UInt64.toNat_add]; rfl
    have hlt := id.raw.toNat_lt
    rw [ne_eq, ← UInt64.toNat_inj, hadd, UInt64.toNat_zero] at h
    rw [UInt64.lt_iff_toNat_lt, hadd]
    omega
  have hmax : max m (id.raw + 1) = if m ≤ id.raw + 1 then id.raw + 1 else m := rfl
  rw [hmax]
  split
  · exact hnext
  · exact UInt64.lt_trans hnext (UInt64.not_le.mp ‹_›)

namespace Atom

variable {x : Atom σ}

/-- The access gives nobody an ID. It may move the counter, and do with mailboxes what it likes. -/
def Anonymous : Atom σ → Prop
  | alter f => ∃ g, f = (·.modifyOffice g)
  | enroll _ | setId .. => False
  | _ => True

theorem anonymous_of_numberless (hx : x.numberless) : x.Anonymous := by
  cases x <;> trivial

theorem anonymous_of_quiet (hx : x.quiet) : x.Anonymous := by
  cases x <;> trivial

theorem given_of_anonymous (hx : x.Anonymous) (w : World σ) :
    (⟨w, x⟩ : Visit σ).given = none := by
  cases x <;> first | rfl | exact hx.elim

theorem Anonymous.confined (hx : x.Anonymous) : x.Confined := by
  rintro f rfl
  exact hx

/-- Whoever has an ID after an access had it before or got it by the access. -/
theorem has_effect (hx : x.Confined) {w : World σ} {id : ActorId}
    (h : (x.effect w).pool.Has id) : (⟨w, x⟩ : Visit σ).Shows id := by
  obtain ⟨a, ha⟩ := h
  rw [idOf_effect] at ha
  cases x with
  | alter f =>
    obtain ⟨g, rfl⟩ := hx f rfl
    exact .inl ⟨a, ha⟩
  | setId c i =>
    dsimp only at ha
    split at ha
    · obtain ⟨-, -, rfl⟩ := Option.map_eq_some_iff.mp ha
      exact .inr rfl
    · exact .inl ⟨a, ha⟩
  | dropId c =>
    dsimp only at ha
    split at ha
    · cases ha
    · exact .inl ⟨a, ha⟩
  | enroll y =>
    dsimp only at ha
    split at ha
    · exact .inr ha
    · exact .inl ⟨a, ha⟩
  | _ => exact .inl ⟨a, ha⟩

end Atom

/-- All IDs that actors have had are below `n`, and those that they were registered with were above
all that there had been until then. -/
structure Numbered (n : UInt64) (h : List (Visit σ)) (w : World σ) : Prop where
  past : ∀ v ∈ h, ∀ id, v.Shows id → id.raw < n
  now : ∀ id, w.pool.Has id → id.raw < n
  steady : (counts h w).Pairwise (· ≤ ·)
  rising : h.Pairwise fun u v => ∀ i j, u.Shows i → v.newId = some j → i.raw < j.raw
  fresh : ∀ v ∈ h, ∀ i j, v.world.pool.Has i → v.newId = some j → i.raw < j.raw

namespace Numbered

variable {n m : UInt64} {h : List (Visit σ)} {w : World σ} {x : Atom σ}

theorem start (config : Config) (env : σ.Env) :
    Numbered n [] (World.empty config env : World σ) where
  past _ hv := absurd hv List.not_mem_nil
  now := by
    rintro id ⟨a, ha⟩
    simp [Pool.idOf, Pool.actor?, World.empty] at ha
  steady := List.pairwise_singleton _ _
  rising := List.Pairwise.nil
  fresh _ hv := absurd hv List.not_mem_nil

/-- An ID that somebody gets must be below the next bound, and one that a new actor gets must not be
below the last. -/
theorem step (hr : Numbered n h w) (hx : x.Confined) (hle : n ≤ m)
    (hgiven : ∀ id, (⟨w, x⟩ : Visit σ).given = some id → id.raw < m)
    (hnew : ∀ id, (⟨w, x⟩ : Visit σ).newId = some id → n ≤ id.raw) :
    Numbered m (h ++ [⟨w, x⟩]) (x.effect w) := by
  have hshows : ∀ id, (⟨w, x⟩ : Visit σ).Shows id → id.raw < m := by
    rintro id (hid | hid)
    · exact UInt64.lt_of_lt_of_le (hr.now id hid) hle
    · exact hgiven id hid
  refine ⟨?_, fun id hid => hshows id (Atom.has_effect hx hid), ?_, ?_, ?_⟩
  · intro v hv id hid
    rcases List.mem_append.mp hv with hv | hv
    · exact UInt64.lt_of_lt_of_le (hr.past v hv id hid) hle
    · obtain rfl := List.mem_singleton.mp hv
      exact hshows id hid
  · have hcounts : counts (h ++ [⟨w, x⟩]) (x.effect w) =
        counts h w ++ [(x.effect w).pool.nextId] := by
      rw [counts, List.map_append]
      rfl
    have hstep := Atom.le_nextId_effect hx w
    rw [hcounts]
    refine List.pairwise_append.mpr ⟨hr.steady, List.pairwise_singleton _ _, ?_⟩
    intro k hk l hl
    obtain rfl := List.mem_singleton.mp hl
    rcases List.mem_append.mp hk with hk' | hk'
    · have hlast := (List.pairwise_append.mp hr.steady).2.2 k hk' _ (List.mem_singleton_self _)
      exact UInt64.le_trans hlast hstep
    · obtain rfl := List.mem_singleton.mp hk'
      exact hstep
  · refine List.pairwise_append.mpr ⟨hr.rising, List.pairwise_singleton _ _, ?_⟩
    intro u hu v hv i j hi hj
    obtain rfl := List.mem_singleton.mp hv
    exact UInt64.lt_of_lt_of_le (hr.past u hu i hi) (hnew j hj)
  · intro v hv i j hi hj
    rcases List.mem_append.mp hv with hv | hv
    · exact hr.fresh v hv i j hi hj
    · obtain rfl := List.mem_singleton.mp hv
      exact UInt64.lt_of_lt_of_le (hr.now i hi) (hnew j hj)

theorem anonymous (hr : Numbered n h w) (hx : x.Anonymous) (hle : n ≤ m) :
    Numbered m (h ++ [⟨w, x⟩]) (x.effect w) := by
  have hgiven := Atom.given_of_anonymous hx w
  refine hr.step hx.confined hle (fun id hid => ?_) fun id hid => ?_
  · rw [hgiven] at hid
    cases hid
  · rw [Visit.given_of_newId hid] at hgiven
    cases hgiven

end Numbered

/-- The counter is such a bound, unless it has run over. -/
def CountsOn : Fact σ := fun h w => (∀ v ∈ h, v.overflows = false) → Numbered w.pool.nextId h w

namespace CountsOn

variable {h : List (Visit σ)} {w : World σ}

theorem anonymous (hr : CountsOn h w) {x : Atom σ} (hx : x.Anonymous) :
    CountsOn (h ++ [⟨w, x⟩]) (x.effect w) := by
  intro hover
  have hbefore := hr fun v hv => hover v (List.mem_append_left _ hv)
  exact hbefore.anonymous hx (Atom.le_nextId_effect hx.confined w)

/-- A new actor gets the ID that the counter shows, and the counter moves on. -/
theorem enlist (hr : CountsOn h w) {id : ActorId} (size : Nat) {x : Actor σ} (hx : x.id = some id)
    (hnext : w.pool.nextId = id.raw) :
    CountsOn (h ++ (Act.enlist id size x).visits w) ((Act.enlist id size x).run w).2 := by
  intro hover
  have hroom : id.raw + 1 ≠ 0 := by
    have hreserve := hover ⟨w, .reserve id⟩ (List.mem_append_right _ List.mem_cons_self)
    exact beq_eq_false_iff_ne.mp hreserve
  have hbefore := hr fun v hv => hover v (List.mem_append_left _ hv)
  rw [hnext] at hbefore
  have hreserved := hbefore.anonymous (x := .reserve id) trivial (UInt64.le_refl _)
  have hreported := hreserved.anonymous (x := .report (.registered id x.name size)) trivial
    (UInt64.le_refl _)
  have hlt := ActorId.lt_max hroom w.pool.nextId
  have henrolled := hreported.step (x := .enroll x) nofun (UInt64.le_of_lt hlt)
    (fun i hi => by cases hx.symm.trans hi; exact hlt)
    fun i hi => by cases hx.symm.trans hi; exact UInt64.le_refl _
  rw [List.append_assoc, List.append_assoc] at henrolled
  exact henrolled

/-- An actor takes an ID, and the counter makes way for it. -/
theorem renumber (hr : CountsOn h w) (a : ActorRef) (id : ActorId) :
    CountsOn (h ++ [⟨w, .setId a id⟩, ⟨(Atom.setId a id).effect w, .reserve id⟩])
      ((Atom.reserve id).effect ((Atom.setId a id).effect w)) := by
  intro hover
  have hroom : id.raw + 1 ≠ 0 := by
    have hreserve := hover ⟨(Atom.setId a id).effect w, .reserve id⟩ (by simp)
    exact beq_eq_false_iff_ne.mp hreserve
  have hbefore := hr fun v hv => hover v (List.mem_append_left _ hv)
  have htaken := hbefore.step (x := .setId a id) nofun (le_max_counter _ (id.raw + 1))
    (fun i hi => by cases hi; exact ActorId.lt_max hroom _) nofun
  have hreserved := htaken.anonymous (x := .reserve id) trivial (UInt64.le_refl _)
  rw [List.append_assoc] at hreserved
  exact hreserved

theorem numbering : Numbering (CountsOn (σ := σ)) where
  plain _ hx _ _ hr := hr.anonymous (Atom.anonymous_of_numberless hx)
  enlist _ size _ hx _ _ hr hnext := hr.enlist size hx hnext
  renumber a id _ _ _ hr := hr.renumber a id

end CountsOn

namespace Act

theorem Postal.anonymous {t : Act σ α} (ht : Postal t) : t.All (·.Anonymous) := by
  induction ht with
  | pure a => trivial
  | bind _ _ ih ih' => exact Dialogue.all_bind ih ih'
  | atom hx => exact ⟨Atom.anonymous_of_quiet hx, fun _ => trivial⟩
  | createMailbox c => exact all_createMailbox (fun _ => trivial) trivial
  | revoke c => exact all_revokeFor (fun _ => trivial) trivial
  | poll b => exact all_asOwner trivial b (all_poll trivial (fun g => ⟨g, rfl⟩) b)
  | discard b => exact all_asOwner trivial b ⟨⟨_, rfl⟩, fun _ => trivial⟩
  | readdress b c =>
    exact all_asOwner trivial b
      (all_readdress trivial (fun _ => trivial) (fun _ => trivial) trivial)

end Act

theorem counts_upkeep {company : Company σ} (hc : company.Postal) :
    Upkeep company (fun _ => CountsOn) fun _ id _ h w => CountsOn h w ∧ w.pool.nextId = id.raw :=
  CountsOn.numbering.upkeep fun c =>
    Act.Leads.of_all (hc c).anonymous fun _ hx _ _ hr => hr.anonymous hx

/-! ## A registration -/

/-- The ID that the counter shows. -/
def Pool.next (p : Pool σ) : ActorId := ⟨p.nextId⟩

/-- The IDs that actors are registered with, in this order. -/
def newIds (h : List (Visit σ)) : List ActorId := h.filterMap (·.newId)

section Register

open Act

/-- Nobody has been registered. -/
def Unnumbered : Fact σ := fun h _ => newIds h = []

theorem unnumbered_of_all {t : Act σ α} (ht : t.All (·.numberless)) :
    Leads Unnumbered t fun _ => Unnumbered := by
  refine Leads.of_all ht fun x hx h w hids => ?_
  rw [Unnumbered, newIds, List.filterMap_append, ← newIds, hids, List.nil_append]
  cases x <;> first | rfl | cases hx

theorem unnumbered_atom {x : Atom σ} (hx : x.numberless) :
    Leads Unnumbered (atom x) fun _ => Unnumbered :=
  unnumbered_of_all (t := atom x) ⟨hx, fun _ => trivial⟩

/-- A registration hands out the ID that comes back, and no other. -/
theorem newIds_register (name : String) (role : σ.Role) (w : World σ) :
    newIds ((register name role).visits w) = ((register name role).run w).1.toOption.toList := by
  have hleads : Leads Unnumbered (register name role)
      fun r h _ => newIds h = r.toOption.toList := by
    have hlook : Leads Unnumbered (pool (σ := σ)) fun _ => Unnumbered :=
      unnumbered_of_all (t := pool) ⟨rfl, fun _ => trivial⟩
    refine (unnumbered_atom rfl).bind fun _ => (unnumbered_atom rfl).bind fun _ => ?_
    refine hlook.bind fun p => (unnumbered_atom (x := .tableSize) rfl).bind fun (size : Nat) => ?_
    dsimp only
    split
    · refine (unnumbered_atom rfl).bind fun _ => (unnumbered_atom rfl).bind fun _ => ?_
      exact Leads.pure fun _ _ hids => hids
    refine (unnumbered_atom (x := .nextId) rfl).bind fun n => ?_
    have hmade : (createMailbox (σ := σ) (ActorId.address ⟨n⟩)).All (·.numberless) :=
      all_createMailbox (P := fun x => x.numberless) (fun _ => rfl) rfl
    refine (unnumbered_of_all hmade).bind fun made => ?_
    cases made with
    | error e => exact (unnumbered_atom rfl).bind fun _ => Leads.pure fun _ _ hids => hids
    | ok b =>
      intro h w hids
      rw [newIds, List.filterMap_append, ← newIds, hids]
      rfl
  exact hleads [] w rfl

theorem run_register {name : String} {role : σ.Role} {w : World σ}
    (hfree : w.pool.tableLock.hasWriter = false) :
    (register name role).run w =
      if w.pool.config.maxActors ≤ w.pool.table.length then
        (.error (.tableFull w.pool.config.maxActors),
          w.report (.tableFull w.pool.config.maxActors))
      else match w.pool.office.create w.pool.next.address with
        | .error e => (.error e, w.report (.addressInUse w.pool.next.address))
        | .ok (b, o) => (.ok w.pool.next,
            { w with
              pool := { w.pool with
                office := o
                actors := w.pool.actors.push { id := some w.pool.next, name, box := b, role }
                table := w.pool.table ++ [w.pool.actors.size]
                nextId := max w.pool.nextId (w.pool.next.raw + 1) }
              log := (w.log.push (.mailboxCreated w.pool.next.address)).push
                (.registered w.pool.next name (w.pool.table.length + 1)) }) := by
  -- the lock is free, so what the writer does to it is undone at the end
  obtain ⟨⟨config, office, actors, table, ⟨taken, readers⟩, nextId⟩, log, env⟩ := w
  cases hfree
  let inside : World σ := ⟨⟨config, office, actors, table, ⟨true, readers⟩, nextId⟩, log, env⟩
  have hmade := run_createMailbox inside ⟨nextId⟩
  dsimp only [Pool.next, ActorId.address]
  change run (if config.maxActors ≤ table.length then _ else _) inside = _
  split
  · rfl
  refine (run_bind (createMailbox ⟨nextId⟩) _ inside).trans ?_
  rw [hmade]
  cases office.create ⟨nextId⟩ <;> rfl

end Register

namespace Office

variable {V : Type}

/-- The office `o'` is `o` with one more mailbox, which is empty and attached at `c`. -/
structure Gained (o o' : Office V) (c : Address) (b : BoxRef) : Prop where
  unused : o.box? b = none
  made : o'.box? b = some { address := c, queue := [], owned := true }
  attached : o'.Attached c b
  mailboxes : ∀ d, d ≠ b → o'.box? d = o.box? d
  registry : ∀ a, a ≠ c → o'.boxAt a = o.boxAt a
  closed : o'.closed = o.closed

variable {o o' : Office V} {c : Address} {b : BoxRef}

theorem gained_of_create (h : o.create c = .ok (b, o')) : o.Gained o' c b := by
  obtain ⟨hb, ho⟩ := create_eq_ok h
  have hmade : o'.box? b = some { address := c } := by rw [box?_create h, if_pos rfl]
  refine ⟨?_, hmade, ⟨?_, ?_⟩, fun d hd => ?_, fun a ha => ?_, ?_⟩
  · exact o.box?_eq_none_of_size_le hb.ge
  · rw [ho]
    exact List.mem_append_right _ (List.mem_singleton_self _)
  · rw [isOwned, hmade]
    rfl
  · rw [box?_create h, if_neg hd]
  · rw [boxAt_create h, if_neg ha]
  · rw [ho]
    rfl

theorem create_eq_error (h : o.contains c) : o.create c = .error (.addressInUse c) := if_pos h

theorem exists_create (h : o.contains c = false) : ∃ made, o.create c = .ok made :=
  ⟨_, if_neg (by rw [h]; exact Bool.false_ne_true)⟩

end Office

/-- There is one more actor in the pool, healthy and idle, with an empty mailbox at the address of
its ID. The counter has moved on, and nothing else has changed. -/
structure Enlisted (name : String) (role : σ.Role) (id : ActorId) (b : BoxRef) (w w' : World σ) :
    Prop where
  next : id.raw = w.pool.nextId
  mailbox : w.pool.office.Gained w'.pool.office id.address b
  pool : w'.pool = { w.pool with
    office := w'.pool.office
    actors := w.pool.actors.push { id := some id, name, phase := .idle, box := b, role }
    table := w.pool.table ++ [w.pool.actors.size]
    nextId := max w.pool.nextId (id.raw + 1) }
  env : w'.env = w.env

/-- The next registration fails with this error. -/
def Pool.Refuses (p : Pool σ) (e : Error) : Prop :=
  p.config.maxActors ≤ p.table.length ∧ e = .tableFull p.config.maxActors ∨
    p.table.length < p.config.maxActors ∧ p.office.contains p.next.address ∧
      e = .addressInUse p.next.address

/-- What a registration comes to. -/
structure Registration (name : String) (role : σ.Role) (w : World σ) : Prop where
  succeeds_iff : (∃ id, ((Act.register name role).run w).1 = .ok id) ↔
    w.pool.table.length < w.pool.config.maxActors ∧
      w.pool.office.contains w.pool.next.address = false
  enlists : ∀ id, ((Act.register name role).run w).1 = .ok id →
    ∃ b, Enlisted name role id b w ((Act.register name role).run w).2
  /-- Nothing but the log tells of a registration that was refused. -/
  refuses : ∀ e, ((Act.register name role).run w).1 = .error e →
    w.pool.Refuses e ∧ ((Act.register name role).run w).2.pool = w.pool ∧
      ((Act.register name role).run w).2.env = w.env
  newId : newIds ((Act.register name role).visits w) =
    ((Act.register name role).run w).1.toOption.toList

theorem registration_of_refused {name : String} {role : σ.Role} {w : World σ} {e : Error}
    {event : Event} (hrun : (Act.register name role).run w = (.error e, w.report event))
    (he : w.pool.Refuses e) : Registration name role w where
  succeeds_iff := by
    rw [hrun]
    refine iff_of_false (fun ⟨id, hid⟩ => nomatch hid) ?_
    rintro ⟨hroom, hfree⟩
    rcases he with ⟨hfull, -⟩ | ⟨-, hcontains, -⟩
    · exact Nat.not_lt.mpr hfull hroom
    · rw [hfree] at hcontains
      cases hcontains
  enlists := by
    rw [hrun]
    exact nofun
  refuses := by
    rw [hrun]
    rintro d ⟨⟩
    exact ⟨he, rfl, rfl⟩
  newId := newIds_register name role w

/-- A registration finds the lock free when it begins. -/
theorem registration (name : String) (role : σ.Role) {w : World σ}
    (hfree : w.pool.tableLock.hasWriter = false) : Registration name role w := by
  have hrun := @run_register σ name role w hfree
  by_cases hfull : w.pool.config.maxActors ≤ w.pool.table.length
  · rw [if_pos hfull] at hrun
    exact registration_of_refused hrun (.inl ⟨hfull, rfl⟩)
  rw [if_neg hfull] at hrun
  cases hcontains : w.pool.office.contains w.pool.next.address with
  | true =>
    rw [Office.create_eq_error hcontains] at hrun
    exact registration_of_refused hrun (.inr ⟨Nat.not_le.mp hfull, hcontains, rfl⟩)
  | false =>
    obtain ⟨⟨b, o⟩, hmade⟩ := Office.exists_create hcontains
    rw [hmade] at hrun
    refine ⟨?_, ?_, ?_, newIds_register name role w⟩
    · rw [hrun]
      exact iff_of_true ⟨_, rfl⟩ ⟨Nat.not_le.mp hfull, hcontains⟩
    · rw [hrun]
      rintro id ⟨⟩
      exact ⟨b, rfl, Office.gained_of_create hmade, rfl, rfl⟩
    · rw [hrun]
      exact nofun

/-! ## Every ID is new -/

/-- Some actor had this ID at one of the accesses, or has it now. -/
def EverHeld (h : List (Visit σ)) (w : World σ) (id : ActorId) : Prop :=
  (∃ v ∈ h, v.world.pool.Has id) ∨ w.pool.Has id

structure NeverReused (h : List (Visit σ)) (w : World σ) : Prop where
  below : ∀ id, EverHeld h w id → id.raw < w.pool.nextId
  steady : (counts h w).Pairwise (· ≤ ·)
  increasing : (newIds h).Pairwise fun i j => i.raw < j.raw
  fresh : ∀ before v after, h = before ++ v :: after → ∀ id, v.newId = some id →
    ¬EverHeld before v.world id

theorem Numbered.neverReused {h : List (Visit σ)} {w : World σ}
    (hr : Numbered w.pool.nextId h w) : NeverReused h w where
  below := by
    rintro id (⟨v, hv, hid⟩ | hid)
    · exact hr.past v hv id (.inl hid)
    · exact hr.now id hid
  steady := hr.steady
  increasing := by
    refine List.pairwise_filterMap.mpr (hr.rising.imp fun huv i hi j hj => ?_)
    exact huv i j (.inr (Visit.given_of_newId hi)) hj
  fresh := by
    rintro before v after rfl id hid (⟨u, hu, hheld⟩ | hheld)
    · have hrising := (List.pairwise_append.mp hr.rising).2.2 u hu v List.mem_cons_self
      exact UInt64.lt_irrefl _ (hrising id id (.inl hheld) hid)
    · have hv : v ∈ before ++ v :: after := List.mem_append_right _ List.mem_cons_self
      exact UInt64.lt_irrefl _ (hr.fresh v hv id id hheld hid)

/-- After any routines, one after another and by either strategy, whatever messages the actors get
and whatever outsiders do with addresses and mailboxes of their own: as long as the counter does not
run over, it is above all IDs that actors have ever had and never goes back, and every new actor
gets an ID that is above all of them. And wherever nobody writes to the table, a registration
succeeds exactly if there is room in the table and the address of the next ID is free, adds the
actor and its mailbox, and changes nothing if it fails. -/
theorem ids_are_never_reused (company : Company σ) (hc : company.Postal) (config : Config)
    (env : σ.Env) (rs : List (Routine σ)) (w : World σ) (h : List (Visit σ))
    (hw : ((Routine.all company rs).run (.empty config env)).2 = w)
    (hh : (Routine.all company rs).visits (.empty config env) = h)
    (hcounter : ∀ v ∈ h, v.overflows = false) :
    NeverReused h w ∧ ∀ name role (u : World σ), u.pool.tableLock.hasWriter = false →
      Registration name role u := by
  have hcounts : CountsOn ([] ++ h) w := by
    rw [← hw, ← hh]
    exact (counts_upkeep hc).all rs [] _ fun _ => Numbered.start config env
  exact ⟨(hcounts hcounter).neverReused, fun name role u => registration name role⟩

namespace Squatter

def register : Routine signature := .serve (.ask (.register ()) fun _ => .done ())

/-- An actor jumps ahead twice, and an outsider settles at the next ID in between; then the actor
stops. Three of the four registrations succeed. -/
def jumps : List (Routine signature) :=
  [register, .slip 0 (.ofControl (.setId ⟨5⟩)), .drain 0,
    .serve (.ask (.call ⟨6⟩) fun _ => .done ()), register, .slip 0 (.ofControl (.setId ⟨9⟩)),
    .drain 0, register, .serve (.ask (.unregister ⟨9⟩) fun _ => .done ()), .sweep 0 9, register]

end Squatter

theorem jumps_never_reuse :
    NeverReused ((Routine.all Squatter.company Squatter.jumps).visits (.empty {} ()))
        ((Routine.all Squatter.company Squatter.jumps).run (.empty {} ())).2 ∧
      newIds ((Routine.all Squatter.company Squatter.jumps).visits (.empty {} ())) =
        [⟨1⟩, ⟨10⟩, ⟨11⟩] := by
  have hcounter : ∀ v ∈ (Routine.all Squatter.company Squatter.jumps).visits (.empty {} ()),
      v.overflows = false := by
    decide +kernel
  have hpostal : Squatter.company.Postal :=
    fun id => .bind (.revoke id.address) fun _ => .createMailbox id.address
  have hnever := ids_are_never_reused Squatter.company hpostal {} () Squatter.jumps _ _ rfl rfl
    hcounter
  exact ⟨hnever.1, by decide +kernel⟩

end ActorSystem
