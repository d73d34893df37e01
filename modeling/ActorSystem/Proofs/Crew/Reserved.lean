import ActorSystem.Proofs.Crew.Addresses
import ActorSystem.Proofs.Crew.Heeds
import ActorSystem.Proofs.Identity.Range

/-!
# Numbers that are reserved

An actor that takes another ID gets its new address first, then the ID, and only then are later
registrations kept clear of the number. Between the first of these accesses and the last the move
is under way (`Pending`), and the counter may stand at the very number or below. At any other time
it has passed the numbers of all actors: their addresses as far as they are no names, and their IDs.

* `Official`: how the threads of a pool come to give IDs to actors.
* `Reserved`: what the counter has passed.
* `Sane.reserved`: this holds at any time.
-/

namespace ActorSystem

variable {σ : Signature} {α : Type}

/-! ## Moves under way -/

/-- By this access a mailbox got to be registered at `c`. -/
def Visit.MovesTo (v : Visit σ) (c : Address) : Prop :=
  ∃ b s, v.atom = .rekey b s c ∧ (Atom.rekey b s c).answer v.world = .ok ()

/-- A thread that has made the accesses `h` has moved a mailbox to `c` and not reserved the number
since then. -/
def Pending (h : List (Visit σ)) (c : Address) : Prop :=
  ∃ before v after, h = before ++ v :: after ∧ v.MovesTo c ∧
    ∀ u ∈ after, u.atom ≠ .reserve ⟨c.raw⟩

variable {h : List (Visit σ)} {v : Visit σ} {c : Address}

theorem pending_of_moves (hv : v.MovesTo c) : Pending (h ++ [v]) c :=
  ⟨h, v, [], rfl, hv, fun _ hu => absurd hu List.not_mem_nil⟩

theorem Pending.snoc (hh : Pending h c) (hv : v.atom ≠ .reserve ⟨c.raw⟩) :
    Pending (h ++ [v]) c := by
  obtain ⟨before, u, after, rfl, hu, hafter⟩ := hh
  refine ⟨before, u, after ++ [v], by rw [List.append_assoc, List.cons_append], hu, ?_⟩
  intro x hx
  rcases List.mem_append.mp hx with hx | hx
  · exact hafter x hx
  · rw [List.mem_singleton.mp hx]
    exact hv

/-- A move that is under way was so before, or has been made since. -/
theorem Pending.of_append {vs : List (Visit σ)} (hh : Pending (h ++ vs) c) :
    Pending h c ∨ ∃ u ∈ vs, u.MovesTo c := by
  obtain ⟨before, v, after, hsplit, hv, hafter⟩ := hh
  rcases List.append_eq_append_iff.mp hsplit with ⟨rest, rfl, hrest⟩ | ⟨rest, rfl, hrest⟩
  · right
    refine ⟨v, ?_, hv⟩
    rw [hrest]
    exact List.mem_append_right _ List.mem_cons_self
  · cases rest with
    | nil =>
      right
      refine ⟨v, ?_, hv⟩
      rw [List.nil_append] at hrest
      rw [← hrest]
      exact List.mem_cons_self
    | cons u rest =>
      left
      obtain ⟨rfl, rfl⟩ := List.cons.inj hrest
      exact ⟨before, v, rest, rfl, hv, fun x hx => hafter x (List.mem_append_left _ hx)⟩

/-! ## How actors get IDs -/

/-- By this access mailbox `b` was made at `c`. -/
def Visit.Makes (v : Visit σ) (c : Address) (b : BoxRef) : Prop :=
  v.atom = .createMailbox c ∧ (Atom.createMailbox c).answer v.world = .ok b

/-- An actor gets an ID from a thread that has moved its mailbox and is still to reserve the number;
or it is new, and the thread has made it a mailbox and reserved the number. -/
structure Official (h : List (Visit σ)) (v : Visit σ) : Prop where
  renumbers : ∀ a id, v.atom = .setId a id → Pending h id.address
  enrolls : ∀ x, v.atom = .enroll x → ∃ id, x.id = some id ∧
    (∃ u ∈ h, u.Makes id.address x.box) ∧ ∃ u ∈ h, u.atom = .reserve id

theorem official_of_common (hv : v.atom.common) : Official h v where
  renumbers a id hx := by
    rw [hx] at hv
    cases hv
  enrolls x hx := by
    rw [hx] at hv
    cases hv

namespace Act

theorem readdress_official (h : List (Visit σ)) (b : BoxRef) (c : Address) :
    Heeds Official h (readdress b c) fun r h' => r = .ok () → Pending h' c := by
  intro w
  refine ⟨official_of_common rfl, ?_⟩
  change Heeds Official _ (if w.pool.office.closed then _ else _) _
  split
  · intro hr
    cases hr
  have hrekey : ∀ s, Heeds Official (h ++ [⟨w, .look⟩]) (atom (.rekey b s c)) fun r h' =>
      r = .ok () → Pending h' c := by
    intro s
    apply Heeds.atom
    intro u
    exact ⟨official_of_common rfl, fun hmoved => pending_of_moves ⟨b, s, rfl, hmoved⟩⟩
  apply (hrekey _).bind
  intro (r : Except Error Unit) h' hr
  cases r with
  | error e =>
    intro hr
    cases hr
  | ok =>
    have hpending : Pending h' c := hr rfl
    dsimp only
    split
    · intro u
      refine ⟨official_of_common rfl, fun u' => ⟨official_of_common rfl, fun _ => ?_⟩⟩
      exact Pending.snoc (Pending.snoc hpending nofun) nofun
    · intro u
      exact ⟨official_of_common rfl, fun _ => hpending.snoc nofun⟩

theorem changeId_official (h : List (Visit σ)) (a : ActorRef) (id : ActorId) :
    Heeds Official h (changeId a id) fun _ _ => True := by
  have hpool : Heeds Official h (pool : Act σ (Pool σ)) fun _ _ => True :=
    fun w => ⟨official_of_common rfl, trivial⟩
  apply hpool.bind
  intro p h' _
  dsimp only
  split
  · split
    · exact fun _ => ⟨official_of_common rfl, trivial⟩
    apply (readdress_official h' _ id.address).bind
    intro r h' hr
    cases r with
    | error e => exact fun _ => ⟨official_of_common rfl, trivial⟩
    | ok =>
      intro u
      constructor
      · refine ⟨?_, nofun⟩
        rintro _ _ ⟨⟩
        exact hr rfl
      · exact fun _ => ⟨official_of_common rfl, fun _ => ⟨official_of_common rfl, trivial⟩⟩
  · trivial

theorem createMailbox_official (h : List (Visit σ)) (c : Address) :
    Heeds Official h (createMailbox c) fun r h' => ∀ b, r = .ok b → ∃ u ∈ h', u.Makes c b := by
  have hmake : Heeds Official h (atom (.createMailbox c)) fun r h' =>
      ∀ b, r = .ok b → ∃ u ∈ h', u.Makes c b := by
    apply Heeds.atom
    intro w
    refine ⟨official_of_common rfl, fun b hb => ⟨⟨w, .createMailbox c⟩, ?_, rfl, hb⟩⟩
    exact List.mem_append_right _ (List.mem_singleton_self _)
  apply hmake.bind
  intro (r : Except Error BoxRef) h' hr
  cases r with
  | error e =>
    intro w
    refine ⟨official_of_common rfl, ?_⟩
    rintro b ⟨⟩
  | ok d =>
    intro w
    refine ⟨official_of_common rfl, ?_⟩
    rintro b ⟨⟩
    obtain ⟨u, hu, hmade⟩ := hr d rfl
    exact ⟨u, List.mem_append_left _ hu, hmade⟩

theorem register_official (h : List (Visit σ)) (name : String) (role : σ.Role) :
    Heeds Official h (register name role) fun _ _ => True := by
  refine fun _ => ⟨official_of_common rfl, fun _ => ⟨official_of_common rfl, fun w => ?_⟩⟩
  refine ⟨official_of_common rfl, fun w' => ⟨official_of_common rfl, ?_⟩⟩
  change Heeds Official _ (if w.pool.config.maxActors ≤ w'.pool.table.length then _ else _) _
  split
  · exact fun _ => ⟨official_of_common rfl, fun _ => ⟨official_of_common rfl, trivial⟩⟩
  intro w
  refine ⟨official_of_common rfl, ?_⟩
  apply (createMailbox_official _ _).bind
  intro r h' hr
  cases r with
  | error e => exact fun _ => ⟨official_of_common rfl, trivial⟩
  | ok b =>
    obtain ⟨u, hu, hmade⟩ := hr b rfl
    intro w₁
    refine ⟨official_of_common rfl, fun w₂ => ⟨official_of_common rfl, fun w₃ => ⟨⟨nofun, ?_⟩, ?_⟩⟩⟩
    · rintro x ⟨⟩
      refine ⟨⟨w.pool.nextId⟩, rfl, ⟨u, ?_, hmade⟩, ⟨w₁, .reserve ⟨w.pool.nextId⟩⟩, ?_, rfl⟩
      · exact List.mem_append_left _ (List.mem_append_left _ hu)
      · exact List.mem_append_left _ (List.mem_append_right _ (List.mem_singleton_self _))
    · exact fun _ => ⟨official_of_common rfl, trivial⟩

theorem act_official {company : Company σ} (hc : company.Civil) (r : Routine σ)
    (h : List (Visit σ)) : Heeds Official h (r.act company) fun _ _ => True :=
  Heeds.of_composed (fun _ _ => official_of_common) register_official changeId_official
    (act_composed hc r) h

end Act

/-! ## What the counter has passed -/

theorem Atom.boxAt_of_createMailbox {d : Address} {w : World σ} {b : BoxRef}
    (hat : ((Atom.createMailbox d).effect w).pool.office.boxAt c = some b) :
    w.pool.office.boxAt c = some b ∨ Visit.Makes ⟨w, .createMailbox d⟩ c b := by
  simp only [effect] at hat
  cases hmade : w.pool.office.create d with
  | error e =>
    rw [hmade] at hat
    exact .inl hat
  | ok made =>
    obtain ⟨e, o⟩ := made
    rw [hmade] at hat
    change o.boxAt c = some b at hat
    rw [Office.boxAt_create hmade] at hat
    split at hat
    · rename_i hcd
      cases hat
      have hanswer : (Atom.createMailbox d).answer w = .ok b := by
        simp only [answer, hmade]
        rfl
      rw [hcd]
      exact .inr ⟨rfl, hanswer⟩
    · exact .inl hat

theorem Atom.boxAt_of_rekey {e : BoxRef} {s t : Address} {w : World σ} {b : BoxRef}
    (hat : ((Atom.rekey e s t).effect w).pool.office.boxAt c = some b) :
    w.pool.office.boxAt c = some b ∨ Visit.MovesTo ⟨w, .rekey e s t⟩ c := by
  simp only [effect] at hat
  cases hmoved : w.pool.office.rekey e s t with
  | error e =>
    rw [hmoved] at hat
    exact .inl hat
  | ok o =>
    rw [hmoved] at hat
    change o.boxAt c = some b at hat
    rw [(Office.rekey_eq_ok hmoved).2.2.2.2] at hat
    split at hat
    · rename_i hct
      have hanswer : (Atom.rekey e s t).answer w = .ok () := by
        simp only [answer, hmoved]
        rfl
      rw [hct]
      exact .inr ⟨e, s, rfl, hanswer⟩
    · split at hat
      · cases hat
      · exact .inl hat

/-- Who is registered where after an access was so before, or was made or moved there by it. -/
theorem Atom.boxAt_of_effect {x : Atom σ} (hx : ∀ f, x ≠ .alter f) {w : World σ} {b : BoxRef}
    (hat : (x.effect w).pool.office.boxAt c = some b) :
    w.pool.office.boxAt c = some b ∨ Visit.Makes ⟨w, x⟩ c b ∨ Visit.MovesTo ⟨w, x⟩ c := by
  have herase : ∀ d, (w.pool.office.eraseEntry d).boxAt c = some b →
      w.pool.office.boxAt c = some b := by
    intro d hd
    rw [Office.boxAt_eraseEntry] at hd
    split at hd
    · cases hd
    · exact hd
  cases x with
  | alter f => exact absurd rfl (hx f)
  | createMailbox d => exact (boxAt_of_createMailbox hat).imp_right .inl
  | rekey e s t => exact (boxAt_of_rekey hat).imp_right .inr
  | resolve d =>
    change (w.pool.office.resolve d).2.boxAt c = some b at hat
    unfold Office.resolve at hat
    split at hat
    · exact .inl hat
    · split at hat
      · exact .inl hat
      · exact .inl (herase d hat)
  | revoke r d => exact .inl (herase d hat)
  | takeMail a =>
    left
    simp only [effect, Office.poll] at hat
    cases ha : w.pool.actor? a with
    | none =>
      rw [ha] at hat
      exact hat
    | some y =>
      rw [ha] at hat
      cases hmail : w.pool.office.mail y.box with
      | nil =>
        simp only [Option.bind_some, hmail] at hat
        exact hat
      | cons m rest =>
        simp only [Option.bind_some, hmail] at hat
        exact hat
  | claim a =>
    left
    simp only [effect] at hat
    split at hat <;> exact hat
  | finish a o =>
    left
    simp only [effect] at hat
    split at hat <;> exact hat
  | _ => exact .inl hat

/-- Who has an ID after an access had it before, got it as another one, or is new. -/
theorem Atom.idOf_of_effect {x : Atom σ} (hx : ∀ f, x ≠ .alter f) {w : World σ} {a : ActorRef}
    {id : ActorId} (hid : (x.effect w).pool.idOf a = some id) :
    w.pool.idOf a = some id ∨ x = .setId a id ∨
      ∃ y, x = .enroll y ∧ a = w.pool.actors.size ∧ y.id = some id := by
  rw [idOf_effect] at hid
  cases x with
  | alter f => exact absurd rfl (hx f)
  | setId d new =>
    dsimp only at hid
    split at hid
    · rename_i hda
      obtain ⟨-, -, rfl⟩ := Option.map_eq_some_iff.mp hid
      exact .inr (.inl (by rw [hda]))
    · exact .inl hid
  | dropId d =>
    dsimp only at hid
    split at hid
    · cases hid
    · exact .inl hid
  | enroll y =>
    dsimp only at hid
    split at hid
    · rename_i hnew
      exact .inr (.inr ⟨y, rfl, hnew, hid⟩)
    · exact .inl hid
  | _ => exact .inl hid

namespace Crew

/-- No registration to come gets this number, unless a move to it is under way. -/
def Cleared (c : Crew σ) (x : Address) : Prop :=
  x.isNamed ∨ x.raw < c.world.pool.nextId ∨ ∃ k, Pending (c.trail k) x

end Crew

/-- The counter has passed whatever a thread has reserved, and every number that somebody has, as an
address or as an ID. -/
structure Reserved (c : Crew σ) : Prop where
  made : ∀ e ∈ c.past, ∀ x b, e.2.Makes x b → (c.world.pool.office.box? b).isSome
  reserved : ∀ e ∈ c.past, ∀ id, e.2.atom = .reserve id → c.Cleared id.address
  /-- A mailbox is where it was made, if it has not been moved. -/
  home : ∀ e ∈ c.past, ∀ x b, e.2.Makes x b →
    ∀ y, c.world.pool.office.boxAt y = some b → y = x ∨ c.Cleared y
  addresses : ∀ a b, c.world.pool.boxOf a = some b →
    ∀ y, c.world.pool.office.boxAt y = some b → c.Cleared y
  ids : ∀ a id, c.world.pool.idOf a = some id → c.Cleared id.address

namespace Reserved

variable {config : Config} {company : Company σ} {c c' : Crew σ} {i : ThreadId} {x : Atom σ}

theorem empty (config : Config) (env : σ.Env) : Reserved (Crew.empty config env : Crew σ) where
  made e he := by cases he
  reserved e he := by cases he
  home e he := by cases he
  addresses a b hb := by simp [Crew.empty, World.empty, Pool.boxOf, Pool.actor?] at hb
  ids a id hid := by simp [Crew.empty, World.empty, Pool.idOf, Pool.actor?] at hid

theorem settled (h : Reserved c) (hw : c'.world = c.world) (hp : c'.past = c.past) :
    Reserved c' := by
  have hcleared : ∀ y, c.Cleared y → c'.Cleared y := by
    intro y hy
    rw [Crew.Cleared, hw, Crew.trail_of_past hp]
    exact hy
  constructor
  · rw [hp, hw]
    exact h.made
  · rw [hp]
    exact fun e he id hid => hcleared _ (h.reserved e he id hid)
  · rw [hp, hw]
    exact fun e he x b hmade y hy => (h.home e he x b hmade y hy).imp_right (hcleared y)
  · rw [hw]
    exact fun a b hb y hy => hcleared y (h.addresses a b hb y hy)
  · rw [hw]
    exact fun a id hid => hcleared _ (h.ids a id hid)

section

variable (hx : ∀ f, x ≠ .alter f) (hw : c'.world = x.effect c.world)
variable (hp : c'.past = c.past ++ [(i, ⟨c.world, x⟩)])

include hx hw hp

/-- The counter does not go back, and it passes a number before the move to it is over. -/
theorem cleared_visited {y : Address} (hy : c.Cleared y) : c'.Cleared y := by
  by_cases hnamed : y.isNamed
  · exact .inl hnamed
  have hlow : y.raw.toNat < 2 ^ 63 :=
    (Address.isNamed_eq_false_iff y).mp (Bool.eq_false_iff.mpr hnamed)
  have hcounter : c.world.pool.nextId ≤ c'.world.pool.nextId := by
    rw [hw]
    exact Atom.le_nextId_effect (fun f hf => absurd hf (hx f)) c.world
  right
  rcases hy with hy | hy | ⟨k, hk⟩
  · exact absurd hy hnamed
  · left
    exact UInt64.lt_of_lt_of_le hy hcounter
  · by_cases hreserve : k = i ∧ x = .reserve ⟨y.raw⟩
    · left
      rw [hw, hreserve.2, UInt64.lt_iff_toNat_lt, Atom.nextId_effect]
      have hmax := @ActorId.toNat_max ⟨y.raw⟩ hlow c.world.pool.nextId
      dsimp only at hmax ⊢
      omega
    · right
      refine ⟨k, ?_⟩
      rw [Crew.trail_snoc hp]
      split
      · rename_i hki
        exact hk.snoc fun hv => hreserve ⟨hki, hv⟩
      · exact hk

omit hx hp in
/-- A number that an access reserves is passed. -/
theorem cleared_reserve {id : ActorId} (hreserve : x = .reserve id) : c'.Cleared id.address := by
  by_cases hnamed : id.address.isNamed
  · exact .inl hnamed
  have hlow : id.raw.toNat < 2 ^ 63 :=
    (Address.isNamed_eq_false_iff id.address).mp (Bool.eq_false_iff.mpr hnamed)
  right
  left
  rw [hw, hreserve, UInt64.lt_iff_toNat_lt, Atom.nextId_effect]
  have hmax := ActorId.toNat_max hlow c.world.pool.nextId
  dsimp only at hmax ⊢
  change id.raw.toNat < _
  omega

omit hx hw in
theorem cleared_moves {y : Address} (hmoves : Visit.MovesTo ⟨c.world, x⟩ y) : c'.Cleared y := by
  right
  right
  refine ⟨i, ?_⟩
  rw [Crew.trail_snoc hp, if_pos rfl]
  exact pending_of_moves hmoves

end

section

variable (hc : Sane config c) (hlisted : c.world.pool.office.Listed)
variable (hx : (c.stage i).Allows config.maxActors x) (hr : Official (c.trail i) ⟨c.world, x⟩)
variable (hw : c'.world = x.effect c.world) (hp : c'.past = c.past ++ [(i, ⟨c.world, x⟩)])

include hx hw hp in
theorem made_visited (h : Reserved c) {e : ThreadId × Visit σ} (he : e ∈ c'.past) {y : Address}
    {b : BoxRef} (hmakes : e.2.Makes y b) : (c'.world.pool.office.box? b).isSome := by
  rw [hw]
  rw [hp] at he
  rcases List.mem_append.mp he with he | he
  · exact Atom.box?_isSome_effect (Orderly.ne_alter hx) (h.made e he y b hmakes)
  · cases List.mem_singleton.mp he
    obtain ⟨rfl, hmade⟩ := hmakes
    exact (createMailbox_ok hmade).2

include hlisted hx hw hp in
theorem home_visited (h : Reserved c) {e : ThreadId × Visit σ} (he : e ∈ c'.past) {y z : Address}
    {b : BoxRef} (hmakes : e.2.Makes y b) (hat : c'.world.pool.office.boxAt z = some b) :
    z = y ∨ c'.Cleared z := by
  have halter := Orderly.ne_alter hx
  rw [hp] at he
  rw [hw] at hat
  rcases Atom.boxAt_of_effect halter hat with hold | hnew | hmoves
  · rcases List.mem_append.mp he with he | he
    · exact (h.home e he y b hmakes z hold).imp_right (cleared_visited halter hw hp)
    · -- nobody has a mailbox that is being made
      cases List.mem_singleton.mp he
      have hlt := hlisted.known z b (Office.mem_of_lookup hold)
      have hnone := (createMailbox_ok hmakes.2).1
      rw [Office.box?, Array.getElem?_eq_none_iff] at hnone
      exact absurd hlt (Nat.not_lt.mpr hnone)
  · left
    rcases List.mem_append.mp he with he | he
    · have hsome := h.made e he y b hmakes
      obtain ⟨rfl, hmade⟩ := hnew
      rw [(createMailbox_ok hmade).1] at hsome
      cases hsome
    · cases List.mem_singleton.mp he
      obtain ⟨rfl, -⟩ := hnew
      cases hmakes.1
      rfl
  · exact .inr (cleared_moves hp hmoves)

include hc hx hr hw hp in
theorem addresses_visited (h : Reserved c) {a : ActorRef} {b : BoxRef} {y : Address}
    (hb : c'.world.pool.boxOf a = some b) (hat : c'.world.pool.office.boxAt y = some b) :
    c'.Cleared y := by
  have halter := Orderly.ne_alter hx
  rw [hw] at hb hat
  rcases Housed.boxOf_of_effect hx hb with hold | ⟨-, n, -, z, rfl⟩
  · rcases Atom.boxAt_of_effect halter hat with hat | ⟨rfl, hmade⟩ | hmoves
    · exact cleared_visited halter hw hp (h.addresses a b hold y hat)
    · have hsome := hc.housed.box a b hold
      rw [(createMailbox_ok hmade).1] at hsome
      cases hsome
    · exact cleared_moves hp hmoves
  · rcases Atom.boxOf_enroll hb with ⟨-, rfl⟩ | ⟨-, hold⟩
    · -- the new actor is where its mailbox was made, or somebody has moved it meanwhile
      obtain ⟨id, -, ⟨u, hu, hmakes⟩, v, hv, hreserve⟩ := hr.enrolls z rfl
      apply cleared_visited halter hw hp
      rcases h.home _ (Crew.mem_past_of_trail hu) _ _ hmakes y hat with rfl | hcleared
      · exact h.reserved _ (Crew.mem_past_of_trail hv) id hreserve
      · exact hcleared
    · exact cleared_visited halter hw hp (h.addresses a b hold y hat)

include hx hr hw hp in
theorem ids_visited (h : Reserved c) {a : ActorRef} {id : ActorId}
    (hid : c'.world.pool.idOf a = some id) : c'.Cleared id.address := by
  apply cleared_visited (Orderly.ne_alter hx) hw hp
  rw [hw] at hid
  rcases Atom.idOf_of_effect (Orderly.ne_alter hx) hid with hold | rfl | ⟨z, rfl, -, hz⟩
  · exact h.ids a id hold
  · exact .inr (.inr ⟨i, hr.renumbers a id rfl⟩)
  · obtain ⟨new, hnew, -, v, hv, hreserve⟩ := hr.enrolls z rfl
    cases hnew.symm.trans hz
    exact h.reserved _ (Crew.mem_past_of_trail hv) _ hreserve

include hc hlisted hx hr hw hp in
theorem visited (h : Reserved c) : Reserved c' where
  made e he y b hmakes := h.made_visited hx hw hp he hmakes
  reserved e he id hreserve := by
    rw [hp] at he
    rcases List.mem_append.mp he with he | he
    · exact cleared_visited (Orderly.ne_alter hx) hw hp (h.reserved e he id hreserve)
    · cases List.mem_singleton.mp he
      exact cleared_reserve hw hreserve
  home e he y b hmakes z hat := h.home_visited hlisted hx hw hp he hmakes hat
  addresses a b hb y hat := h.addresses_visited hc hx hr hw hp hb hat
  ids a id hid := h.ids_visited hx hr hw hp hid

end

theorem step (hc : Sane config c) (hlisted : c.world.pool.office.Listed)
    (hr : Heeding Official (fun _ => True) c') (hchange : Orderly.Change config c c')
    (h : Reserved c) : Reserved c' := by
  rcases hchange.between_or_visited with ⟨i, t, -, -, -, hw, hp, -⟩ | ⟨i, x, hx, -, hw, hp, -⟩
  · exact h.settled hw hp
  · exact h.visited hc hlisted hx (hr.last hp) hw hp

end Reserved

/-- What holds at any time of the threads and of the counter. -/
theorem Sane.reserved {config : Config} {company : Company σ} {c : Crew σ} (hc : company.Civil)
    {env : σ.Env} {ms : List (Move σ)} (hplay : (Crew.empty config env).play company ms = some c) :
    Heeding Official (fun _ => True) c ∧ Reserved c := by
  have hall : Sane config c ∧ c.world.pool.office.Listed ∧ Heeding Official (fun _ => True) c ∧
      Reserved c := by
    refine Moves.play_induction (P := fun c => Sane config c ∧ c.world.pool.office.Listed ∧
      Heeding Official (fun _ => True) c ∧ Reserved c) ?_
      ⟨.empty config env, .empty, .empty trivial config env, .empty config env⟩ hplay
    rintro c c' m ⟨hsane, hlisted, hheeding, hreserved⟩ hm
    have hheeding' := hheeding.step (fun r h _ => Act.act_official hc r h) hm
    have hchange := hsane.orderly.change hm
    have hreserved' := hreserved.step hsane hlisted hheeding' hchange
    refine ⟨hsane.step hc hm, ?_, hheeding', hreserved'⟩
    rcases hchange.between_or_visited with ⟨i, t, -, -, -, hw, -⟩ | ⟨i, x, hx, -, hw, -⟩
    · rwa [hw]
    · rw [hw]
      exact hlisted.touched (Atom.touched (Orderly.ne_alter hx) c.world)
  exact hall.2.2

end ActorSystem
