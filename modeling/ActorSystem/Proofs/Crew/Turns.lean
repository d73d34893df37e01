import ActorSystem.Proofs.Crew.Orderly

/-!
# Who has what

Three invariants of the worlds and stages of a crew, each kept by every access that a stage
allows. The lock around the table has one writer at most (`Writers`). Every actor has a mailbox
of its own, which nobody else can get (`Housed`). An actor is taken by one thread at most, and
its phase and its mail are as that thread's stage says (`Taken`).
-/

namespace ActorSystem

variable {σ : Signature} {w : World σ} {s : ThreadId → Stage σ} {i : ThreadId} {limit : Nat}

/-! ## Writers of the table -/

structure Writers (w : World σ) (s : ThreadId → Stage σ) : Prop where
  held : ∀ k, (s k).desk ≠ .away → w.pool.tableLock.hasWriter
  single : ∀ k l, (s k).desk ≠ .away → (s l).desk ≠ .away → k = l

theorem Desk.ne_away_of_after {x : Atom σ} {y : x.Answer} {d : Desk} (hx : x ≠ .lock .claim)
    (h : d.after x y ≠ .away) : d ≠ .away := by
  rintro rfl
  apply h
  cases x with
  | lock op => cases op <;> first | rfl | exact absurd rfl hx
  | _ => rfl

theorem hasWriter_effect {x : Atom σ} (hx : ∀ f, x ≠ .alter f) (w : World σ) :
    (x.effect w).pool.tableLock.hasWriter = match x with
      | .lock .claim => true
      | .lock .leaveWrite => false
      | _ => w.pool.tableLock.hasWriter := by
  rw [Atom.tableLock_effect]
  cases x with
  | alter f => exact absurd rfl (hx f)
  | lock op => cases op <;> rfl
  | _ => rfl

namespace Writers

theorem settled (h : Writers w s) {t : Stage σ} (ht : t.desk = .away) :
    Writers w (assign s i t) := by
  have hold : ∀ k, (assign s i t k).desk ≠ .away → k ≠ i ∧ (s k).desk ≠ .away := by
    intro k hk
    by_cases hki : k = i
    · rw [hki, assign_self] at hk
      exact absurd ht hk
    · rw [assign_of_ne _ _ hki] at hk
      exact ⟨hki, hk⟩
  refine ⟨fun k hk => h.held k (hold k hk).2, fun k l hk hl => ?_⟩
  exact h.single k l (hold k hk).2 (hold l hl).2

/-- Whoever is at the desk after an access was there before, or has just claimed the lock. -/
theorem before (h : Writers w s) {x : Atom σ} (hr : x.ready w) {k : ThreadId}
    (hk : (assign s i ((s i).visit ⟨w, x⟩) k).desk ≠ .away) :
    (s k).desk ≠ .away ∨ (k = i ∧ x = .lock .claim ∧ ∀ l, (s l).desk = .away) := by
  by_cases hki : k = i
  · subst hki
    rw [assign_self] at hk
    by_cases hclaim : x = .lock .claim
    · refine .inr ⟨rfl, hclaim, fun l => ?_⟩
      subst hclaim
      refine Decidable.byContradiction fun hl => ?_
      have hfree : w.pool.tableLock.hasWriter = false := by
        simpa [Atom.ready, LockState.admits] using hr
      rw [h.held l hl] at hfree
      cases hfree
    · exact .inl (Desk.ne_away_of_after hclaim hk)
  · rw [assign_of_ne _ _ hki] at hk
    exact .inl hk

theorem visited (h : Writers w s) {x : Atom σ} (hx : (s i).Allows limit x) (hr : x.ready w) :
    Writers (x.effect w) (assign s i ((s i).visit ⟨w, x⟩)) := by
  constructor
  · intro k hk
    rw [hasWriter_effect (Orderly.ne_alter hx)]
    rcases h.before hr hk with hold | ⟨-, rfl, -⟩
    · have hheld := h.held k hold
      cases x with
      | lock op =>
        cases op with
        | claim => rfl
        | leaveWrite =>
          -- only the writer gives the lock back
          have hki := h.single k i hold hx.desk
          rw [hki, assign_self] at hk
          exact absurd rfl hk
        | _ => exact hheld
      | _ => exact hheld
    · rfl
  · intro k l hk hl
    rcases h.before hr hk with hk | ⟨hk, -, hfree⟩ <;>
      rcases h.before hr hl with hl | ⟨hl, -, hfree'⟩
    · exact h.single k l hk hl
    · exact absurd (hfree' k) hk
    · exact absurd (hfree l) hl
    · rw [hk, hl]

end Writers

/-! ## Mailboxes of one's own -/

structure Housed (w : World σ) (s : ThreadId → Stage σ) : Prop where
  box : ∀ a b, w.pool.boxOf a = some b → (w.pool.office.box? b).isSome
  apart : ∀ a c b, w.pool.boxOf a = some b → w.pool.boxOf c = some b → a = c
  /-- A mailbox that waits for its actor. -/
  fresh : ∀ k n b, (s k).desk = .boxed n b →
    (w.pool.office.box? b).isSome ∧ ∀ a, w.pool.boxOf a ≠ some b

theorem Desk.boxed_of_after {x : Atom σ} {d : Desk} {n : Nat} {b : BoxRef}
    (h : d.after x (x.answer w) = .boxed n b) :
    d = .boxed n b ∨ ∃ c, x = .createMailbox c ∧ (Atom.createMailbox c).answer w = .ok b := by
  cases x with
  | createMailbox c =>
    generalize hy : (Atom.createMailbox c).answer w = y at h
    cases y with
    | ok e =>
      cases d with
      | sized m =>
        cases h
        exact .inr ⟨c, rfl, hy⟩
      | _ => exact .inl h
    | error e => cases d <;> exact .inl h
  | lock op =>
    cases op with
    | claim | leaveWrite => cases h
    | _ => exact .inl h
  | tableSize => cases d <;> first | exact .inl h | cases h
  | enroll x => cases d <;> first | exact .inl h | cases h
  | _ => exact .inl h

/-- What comes of making a mailbox is the mailbox. -/
theorem createMailbox_ok {w : World σ} {c : Address} {b : BoxRef}
    (h : (Atom.createMailbox c).answer w = .ok b) :
    w.pool.office.box? b = none ∧ (((Atom.createMailbox c).effect w).pool.office.box? b).isSome := by
  simp only [Atom.answer] at h
  cases hc : w.pool.office.create c with
  | error e =>
    rw [hc] at h
    cases h
  | ok made =>
    obtain ⟨d, o⟩ := made
    rw [hc] at h
    obtain rfl : d = b := Except.ok.inj h
    refine ⟨?_, ?_⟩
    · rw [(Office.create_eq_ok hc).1]
      exact Office.box?_eq_none_of_size_le _ (Nat.le_refl _)
    · have hbox := Office.box?_create hc d
      rw [if_pos rfl] at hbox
      simp only [Atom.effect, hc]
      exact Option.isSome_of_eq_some hbox

namespace Housed

theorem settled (h : Housed w s) {t : Stage σ} (ht : t.desk = .away) :
    Housed w (assign s i t) := by
  refine ⟨h.box, h.apart, fun k n b hk => ?_⟩
  by_cases hki : k = i
  · rw [hki, assign_self, ht] at hk
    cases hk
  · rw [assign_of_ne _ _ hki] at hk
    exact h.fresh k n b hk

/-- The mailbox of an enrolled actor was waiting for it. -/
theorem boxOf_of_effect {x : Atom σ} (hx : (s i).Allows limit x) {a : ActorRef}
    {b : BoxRef} (hb : (x.effect w).pool.boxOf a = some b) :
    w.pool.boxOf a = some b ∨
      (a = w.pool.actors.size ∧ ∃ n, (s i).desk = .boxed n b ∧ ∃ y, x = .enroll y) := by
  cases x with
  | alter f => exact absurd rfl (Orderly.ne_alter hx f)
  | enroll y =>
    obtain ⟨n, hn, -, -⟩ := hx.desk
    rcases Atom.boxOf_enroll hb with ⟨ha, rfl⟩ | ⟨-, hold⟩
    · exact .inr ⟨ha, n, hn, y, rfl⟩
    · exact .inl hold
  | _ =>
    rw [Atom.boxOf_effect] at hb
    exact .inl hb

theorem visited (h : Housed w s) (hw : Writers w s) {x : Atom σ} (hx : (s i).Allows limit x) :
    Housed (x.effect w) (assign s i ((s i).visit ⟨w, x⟩)) := by
  have hkept : ∀ b, (w.pool.office.box? b).isSome → ((x.effect w).pool.office.box? b).isSome :=
    fun b => Atom.box?_isSome_effect (Orderly.ne_alter hx)
  refine ⟨?_, ?_, ?_⟩
  · intro a b hb
    rcases boxOf_of_effect hx hb with hb | ⟨-, n, hn, -⟩
    · exact hkept b (h.box a b hb)
    · exact hkept b (h.fresh i n b hn).1
  · intro a c b ha hc
    rcases boxOf_of_effect hx ha with ha | ⟨rfl, n, hn, -⟩ <;>
      rcases boxOf_of_effect hx hc with hc | ⟨rfl, m, hm, -⟩
    · exact h.apart a c b ha hc
    · exact absurd ha ((h.fresh i m b hm).2 a)
    · exact absurd hc ((h.fresh i n b hn).2 c)
    · rfl
  · intro k n b hk
    by_cases hki : k = i
    · rw [hki, assign_self] at hk
      rcases Desk.boxed_of_after hk with hold | ⟨c, rfl, hmade⟩
      · obtain ⟨hbox, hfresh⟩ := h.fresh i n b hold
        refine ⟨hkept b hbox, fun a ha => ?_⟩
        rcases boxOf_of_effect hx ha with ha | ⟨-, -, -, y, rfl⟩
        · exact hfresh a ha
        · -- whoever enrolls an actor has no mailbox left for another
          rw [Stage.visit, Stage.after, hold] at hk
          cases hk
      · obtain ⟨hnone, hsome⟩ := createMailbox_ok hmade
        refine ⟨hsome, fun a ha => ?_⟩
        rw [Atom.boxOf_effect] at ha
        have hold := h.box a b ha
        rw [hnone] at hold
        cases hold
    · rw [assign_of_ne _ _ hki] at hk
      obtain ⟨hbox, hfresh⟩ := h.fresh k n b hk
      refine ⟨hkept b hbox, fun a ha => ?_⟩
      rcases boxOf_of_effect hx ha with ha | ⟨-, m, hm, -⟩
      · exact hfresh a ha
      · exact hki (hw.single k i (by rw [hk]; simp) (by rw [hm]; simp))

end Housed

/-! ## Actors that are taken -/

namespace Turn

/-- The phase of the actor that the thread has taken. -/
def phase : Turn σ → Phase
  | stopped _ => .sick
  | _ => .processing

/-- How many messages of its batch the thread has still to take. -/
def left : Turn σ → Nat
  | batch _ size k | holding _ size k _ => size - k
  | _ => 0

theorem left_takeMail (a : ActorRef) (size k : Nat) (m : Message σ.Value) :
    ((batch a size k : Turn σ).after (.takeMail a) (some m)).left = size - (k + 1) := by
  simp only [after]
  split <;> rfl

theorem phase_ne_idle (t : Turn σ) : t.phase ≠ .idle := by
  cases t <;> simp [phase]

/-- A thread gets an actor by taking it and loses it by letting it go. -/
theorem actor?_after (t : Turn σ) (x : Atom σ) (y : x.Answer) :
    (t.after x y).actor? =
      match x, y with
      | .claim a, taken => cond taken (some a) t.actor?
      | .finish .., _ => none
      | _, _ => t.actor? := by
  cases x with
  | claim a => cases y <;> rfl
  | takeMail a =>
    cases y with
    | none => cases t <;> rfl
    | some m =>
      cases t with
      | batch b size k =>
        simp only [after]
        split <;> rfl
      | _ => rfl
  | _ => cases t <;> rfl

theorem phase_after {t : Turn σ} {x : Atom σ} (hx : t.allows x) (y : x.Answer) :
    (t.after x y).phase =
      match x with
      | .sicken _ => .sick
      | .finish .. => .processing
      | _ => t.phase := by
  cases x with
  | claim a =>
    obtain rfl : t = away := hx
    cases y <;> rfl
  | countMail a =>
    obtain rfl : t = begun a := hx
    rfl
  | takeMail a =>
    obtain ⟨size, k, rfl, -⟩ := hx
    cases y with
    | none => rfl
    | some m =>
      simp only [after]
      split <;> rfl
  | dispatch a m =>
    obtain ⟨size, k, rfl⟩ := hx
    rfl
  | sicken a =>
    obtain ⟨size, k, rfl⟩ := hx
    rfl
  | finish a o => cases t <;> rfl
  | _ => cases t <;> rfl

/-- What a thread does to an actor, it does to the one that it has taken. -/
theorem actor?_of_allows {t : Turn σ} {x : Atom σ} (hx : t.allows x) :
    match x with
    | .countMail a | .takeMail a | .dispatch a _ | .sicken a | .finish a _ => t.actor? = some a
    | _ => True := by
  cases x with
  | countMail a =>
    obtain rfl : t = begun a := hx
    rfl
  | takeMail a =>
    obtain ⟨size, k, rfl, -⟩ := hx
    rfl
  | dispatch a m =>
    obtain ⟨size, k, rfl⟩ := hx
    rfl
  | sicken a =>
    obtain ⟨size, k, rfl⟩ := hx
    rfl
  | finish a o =>
    rcases hx with ⟨size, k, rfl, -⟩ | ⟨rfl, -⟩
    · rfl
    · rfl
  | _ => trivial

end Turn

/-- By this access the thread neither takes an actor nor lets one go. -/
def Visit.Keeps (v : Visit σ) : Prop :=
  (∀ b, v.atom = .claim b → ¬v.world.pool.isIdle b) ∧ ∀ b o, v.atom ≠ .finish b o

theorem Stage.actor?_visit_iff {s : Stage σ} {v : Visit σ} {a : ActorRef} :
    (s.visit v).turn.actor? = some a ↔
      (v.atom = .claim a ∧ v.world.pool.isIdle a) ∨ (s.turn.actor? = some a ∧ v.Keeps) := by
  obtain ⟨w, x⟩ := v
  rw [visit, after]
  dsimp only
  rw [Turn.actor?_after]
  cases x with
  | claim c =>
    cases hc : w.pool.isIdle c with
    | false =>
      have hne : c = a → w.pool.isIdle a → s.turn.actor? = some a := by
        rintro rfl ha
        rw [hc] at ha
        cases ha
      simpa [Atom.answer, Visit.Keeps, hc] using hne
    | true =>
      have hiff : c = a ↔ c = a ∧ w.pool.isIdle a := by
        constructor
        · rintro rfl
          exact ⟨rfl, hc⟩
        · exact fun h => h.1
      simpa [Atom.answer, Visit.Keeps, hc] using hiff
  | _ => simp [Visit.Keeps]

structure Taken (w : World σ) (s : ThreadId → Stage σ) : Prop where
  alone : ∀ k l a, (s k).turn.actor? = some a → (s l).turn.actor? = some a → k = l
  phase : ∀ k a, (s k).turn.actor? = some a → w.pool.phaseOf a = some (s k).turn.phase
  stocked : ∀ k a, (s k).turn.actor? = some a → (s k).turn.left ≤ (w.pool.mailOf a).length
  debtor : ∀ k a, a ∈ (s k).debt → w.pool.phaseOf a = some .sick

/-! ### What an access does to actors and their mail -/

theorem phaseOf_of_others {x : Atom σ} (hx : (s i).Allows limit x) {a : ActorRef} {p : Phase}
    (hp : w.pool.phaseOf a = some p) (hidle : p ≠ .idle) (ha : (s i).turn.actor? ≠ some a) :
    (x.effect w).pool.phaseOf a = some p := by
  have hactor := Turn.actor?_of_allows hx.turn
  rw [Atom.phaseOf_effect]
  cases x with
  | alter f => exact absurd rfl (Orderly.ne_alter hx f)
  | claim c =>
    refine (if_neg ?_).trans hp
    rintro ⟨rfl, hi⟩
    rw [hp] at hi
    exact hidle (Option.some.inj hi)
  | sicken c =>
    refine (if_neg ?_).trans hp
    rintro rfl
    exact ha hactor
  | finish c o =>
    refine (if_neg ?_).trans hp
    rintro ⟨rfl, -⟩
    exact ha hactor
  | enroll y =>
    refine (if_neg ?_).trans hp
    exact Nat.ne_of_lt (Pool.phaseOf_isSome_iff.mp (by rw [hp]; rfl))
  | _ => exact hp

/-- An actor keeps its mailbox. -/
theorem boxOf_effect_of_some {x : Atom σ} (hx : (s i).Allows limit x) {a : ActorRef} {b : BoxRef}
    (hb : w.pool.boxOf a = some b) : (x.effect w).pool.boxOf a = some b := by
  rw [Atom.boxOf_effect]
  cases x with
  | alter f => exact absurd rfl (Orderly.ne_alter hx f)
  | enroll y =>
    refine (if_neg ?_).trans hb
    exact Nat.ne_of_lt (Pool.boxOf_isSome_iff.mp (by rw [hb]; rfl))
  | _ => exact hb

theorem mailOf_effect (hh : Housed w s) {x : Atom σ} (hx : (s i).Allows limit x) {a : ActorRef}
    {b : BoxRef} (hb : w.pool.boxOf a = some b) :
    (x.effect w).pool.mailOf a =
      match x with
      | .put c m => if c = b then w.pool.mailOf a ++ [m] else w.pool.mailOf a
      | .takeMail c => if c = a then (w.pool.mailOf a).tail else w.pool.mailOf a
      | _ => w.pool.mailOf a := by
  have hbox := hh.box a b hb
  have hb' := boxOf_effect_of_some hx hb
  rw [Pool.mailOf_eq_of_boxOf hb', Atom.mail_effect, Pool.mailOf_eq_of_boxOf hb]
  cases x with
  | alter f => exact absurd rfl (Orderly.ne_alter hx f)
  | put c m => simp [hbox]
  | takeMail c =>
    have hiff : w.pool.boxOf c = some b ↔ c = a := by
      constructor
      · exact fun hc => hh.apart c a b hc hb
      · rintro rfl
        exact hb
    simp only [hiff]
  | _ => rfl

namespace Taken

theorem settled (h : Taken w s) {t : Stage σ} (ht : t.turn = .away) (hd : t.debt = []) :
    Taken w (assign s i t) := by
  have hold : ∀ k a, (assign s i t k).turn.actor? = some a → assign s i t k = s k := by
    intro k a hk
    by_cases hki : k = i
    · rw [hki, assign_self, ht] at hk
      cases hk
    · exact assign_of_ne _ _ hki
  refine ⟨fun k l a hk hl => ?_, fun k a hk => ?_, fun k a hk => ?_, fun k a hk => ?_⟩
  · exact h.alone k l a (hold k a hk ▸ hk) (hold l a hl ▸ hl)
  · have hsame := hold k a hk
    rw [hsame] at hk ⊢
    exact h.phase k a hk
  · have hsame := hold k a hk
    rw [hsame] at hk ⊢
    exact h.stocked k a hk
  · by_cases hki : k = i
    · rw [hki, assign_self, hd] at hk
      cases hk
    · rw [assign_of_ne _ _ hki] at hk
      exact h.debtor k a hk

/-- A thread that can take an actor finds nobody else at it. -/
theorem free_of_idle (h : Taken w s) {a : ActorRef} (ha : w.pool.isIdle a) (k : ThreadId) :
    (s k).turn.actor? ≠ some a := by
  intro hk
  have hp := h.phase k a hk
  rw [Pool.isIdle_iff.mp ha] at hp
  exact Turn.phase_ne_idle _ (Option.some.inj hp).symm

/-- Whoever has an actor after an access had it before, or has just taken it. -/
theorem before {x : Atom σ} {k : ThreadId} {a : ActorRef}
    (hk : (assign s i ((s i).visit ⟨w, x⟩) k).turn.actor? = some a) :
    (s k).turn.actor? = some a ∨ (k = i ∧ x = .claim a ∧ w.pool.isIdle a) := by
  by_cases hki : k = i
  · subst hki
    rw [assign_self] at hk
    rcases Stage.actor?_visit_iff.mp hk with ⟨hclaim, hidle⟩ | ⟨hold, -⟩
    · exact .inr ⟨rfl, hclaim, hidle⟩
    · exact .inl hold
  · rw [assign_of_ne _ _ hki] at hk
    exact .inl hk

/-- What the thread that has the actor does to its phase. -/
theorem phase_visited (h : Taken w s) {x : Atom σ} (hx : (s i).Allows limit x) {a : ActorRef}
    (ha : ((s i).visit ⟨w, x⟩).turn.actor? = some a) :
    (x.effect w).pool.phaseOf a = some ((s i).visit ⟨w, x⟩).turn.phase := by
  have hafter := Turn.phase_after hx.turn (x.answer w)
  rw [Stage.visit, Stage.after] at ha ⊢
  rw [Turn.actor?_after] at ha
  rw [Atom.phaseOf_effect]
  dsimp only at ha ⊢
  rw [hafter]
  cases x with
  | alter f => exact absurd rfl (Orderly.ne_alter hx f)
  | claim c =>
    have haway : (s i).turn = .away := hx.turn
    cases hi : w.pool.isIdle c with
    | false => simp [Atom.answer, hi, haway, Turn.actor?] at ha
    | true =>
      simp only [Atom.answer, hi, cond_true, Option.some.injEq] at ha
      subst ha
      simp [Pool.isIdle_iff.mp hi, haway, Turn.phase]
  | sicken c =>
    obtain ⟨size, k, ht⟩ := hx.turn
    dsimp only at ha ⊢
    have hold := h.phase i a ha
    rw [ht] at ha
    cases ha
    simp [hold]
  | finish c o => cases ha
  | enroll y =>
    have hold := h.phase i a ha
    refine (if_neg ?_).trans hold
    exact Nat.ne_of_lt (Pool.phaseOf_isSome_iff.mp (by rw [hold]; rfl))
  | _ => exact h.phase i a ha

theorem registered (h : Taken w s) {k : ThreadId} {a : ActorRef}
    (ha : (s k).turn.actor? = some a) : ∃ b, w.pool.boxOf a = some b := by
  have hsome : (w.pool.phaseOf a).isSome := by rw [h.phase k a ha]; rfl
  exact Option.isSome_iff_exists.mp
    (Pool.boxOf_isSome_iff.mpr (Pool.phaseOf_isSome_iff.mp hsome))

/-- To take a message leaves one message less to take. -/
theorem stocked_takeMail {a : ActorRef} (hx : (s i).Allows limit (.takeMail a))
    (hstock : (s i).turn.left ≤ (w.pool.mailOf a).length) :
    ((s i).visit ⟨w, .takeMail a⟩).turn.left ≤ (w.pool.mailOf a).tail.length := by
  obtain ⟨size, k, ht, hk⟩ := hx.turn
  rw [Stage.visit, Stage.after]
  rw [ht] at hstock ⊢
  cases hm : w.pool.mailOf a with
  | nil =>
    rw [hm] at hstock
    simp only [Turn.left, List.length_nil] at hstock
    omega
  | cons m rest =>
    rw [hm, List.length_cons] at hstock
    simp only [Turn.left] at hstock
    simp only [Atom.answer, hm, List.head?_cons, Turn.left_takeMail, List.tail_cons]
    omega

/-- What the thread that has the actor does to its mail: it takes what it has counted. -/
theorem stocked_visited (h : Taken w s) (hh : Housed w s) {x : Atom σ}
    (hx : (s i).Allows limit x) {a : ActorRef}
    (ha : ((s i).visit ⟨w, x⟩).turn.actor? = some a) :
    ((s i).visit ⟨w, x⟩).turn.left ≤ ((x.effect w).pool.mailOf a).length := by
  have hactor := Turn.actor?_of_allows hx.turn
  rcases before (k := i) (by rwa [assign_self]) with hold | ⟨-, rfl, hidle⟩
  · have hstock := h.stocked i a hold
    obtain ⟨b, hb⟩ := h.registered hold
    rw [mailOf_effect hh hx hb]
    cases x with
    | takeMail c =>
      cases hold.symm.trans hactor
      dsimp only
      rw [if_pos rfl]
      exact stocked_takeMail hx hstock
    | countMail c =>
      have ht : (s i).turn = .begun c := hx.turn
      cases hold.symm.trans hactor
      simp [Stage.visit, Stage.after, ht, Turn.after, Turn.left, Atom.answer]
    | claim c =>
      have haway : (s i).turn = .away := hx.turn
      rw [haway] at hold
      cases hold
    | finish c o =>
      rw [Stage.visit, Stage.after, Turn.actor?_after] at ha
      cases ha
    | dispatch c m =>
      obtain ⟨size, k, ht⟩ := hx.turn
      rw [Stage.visit, Stage.after, ht]
      rwa [ht] at hstock
    | sicken c =>
      obtain ⟨size, k, ht⟩ := hx.turn
      rw [Stage.visit, Stage.after, ht]
      exact Nat.zero_le _
    | put c m =>
      have hsame : ((s i).visit ⟨w, .put c m⟩).turn = (s i).turn := by
        rw [Stage.visit, Stage.after]
        cases (s i).turn <;> rfl
      rw [hsame]
      dsimp only
      split
      · rw [List.length_append]
        exact Nat.le_trans hstock (Nat.le_add_right _ _)
      · exact hstock
    | _ =>
      rw [Stage.visit, Stage.after]
      cases ht : (s i).turn <;> rw [ht] at hstock <;> exact hstock
  · have haway : (s i).turn = .away := hx.turn
    simp [Stage.visit, Stage.after, haway, Turn.after, Atom.answer, hidle, Turn.left]

/-- Whoever has to erase an actor after an access had to before, or has just stopped it. -/
theorem debt_before {x : Atom σ} {k : ThreadId} {a : ActorRef}
    (hk : a ∈ (assign s i ((s i).visit ⟨w, x⟩) k).debt) :
    a ∈ (s k).debt ∨ (k = i ∧ x = .sicken a) := by
  by_cases hki : k = i
  · subst hki
    rw [assign_self] at hk
    rcases mem_debtAfter hk with hx | ⟨hk, -⟩
    · exact .inr ⟨rfl, hx⟩
    · exact .inl hk
  · rw [assign_of_ne _ _ hki] at hk
    exact .inl hk

/-- A stopped actor stays stopped: nobody can take it, and its own thread lets it be. -/
theorem sick_visited (h : Taken w s) {x : Atom σ} (hx : (s i).Allows limit x) {a : ActorRef}
    (hp : w.pool.phaseOf a = some .sick) : (x.effect w).pool.phaseOf a = some .sick := by
  by_cases ha : (s i).turn.actor? = some a
  · have hsick := h.phase i a ha
    rw [hp, Option.some.injEq] at hsick
    obtain ⟨c, ht⟩ : ∃ c, (s i).turn = .stopped c := by
      cases ht : (s i).turn with
      | stopped c => exact ⟨c, rfl⟩
      | _ =>
        rw [ht] at hsick
        cases hsick
    rw [Atom.phaseOf_effect]
    have hturn := hx.turn
    rw [ht] at hturn
    cases x with
    | alter f => exact hturn.elim
    | claim c => cases hturn
    | sicken c =>
      obtain ⟨size, k, hk⟩ := hturn
      cases hk
    | finish c o =>
      rcases hturn with ⟨size, k, hk, -⟩ | ⟨-, rfl⟩
      · cases hk
      · simp [hp]
    | enroll y =>
      refine (if_neg ?_).trans hp
      exact Nat.ne_of_lt (Pool.phaseOf_isSome_iff.mp (by rw [hp]; rfl))
    | _ => exact hp
  · exact phaseOf_of_others hx hp (by simp) ha

/-- Who makes an actor stop has taken it, and it was not stopped before. -/
theorem sickened (h : Taken w s) {a : ActorRef} (hx : (s i).Allows limit (.sicken a)) :
    w.pool.phaseOf a = some .processing ∧
      ((Atom.sicken a).effect w).pool.phaseOf a = some .sick := by
  obtain ⟨size, k, ht⟩ := hx.turn
  have hp := h.phase i a (by rw [ht]; rfl)
  rw [ht] at hp
  refine ⟨hp, ?_⟩
  rw [Atom.phaseOf_effect]
  simp [hp]

theorem visited (h : Taken w s) (hh : Housed w s) {x : Atom σ} (hx : (s i).Allows limit x) :
    Taken (x.effect w) (assign s i ((s i).visit ⟨w, x⟩)) := by
  have hothers : ∀ k a, k ≠ i → (s k).turn.actor? = some a → (s i).turn.actor? ≠ some a :=
    fun k a hki hk hi => hki (h.alone k i a hk hi)
  refine ⟨?_, ?_, ?_, ?_⟩
  · intro k l a hk hl
    rcases before hk with hold | ⟨rfl, -, hi⟩ <;> rcases before hl with hold' | ⟨rfl, -, hi'⟩
    · exact h.alone k l a hold hold'
    · exact absurd hold (h.free_of_idle hi' k)
    · exact absurd hold' (h.free_of_idle hi l)
    · rfl
  · intro k a hk
    by_cases hki : k = i
    · subst hki
      rw [assign_self] at hk ⊢
      exact h.phase_visited hx hk
    · rw [assign_of_ne _ _ hki] at hk ⊢
      exact phaseOf_of_others hx (h.phase k a hk) (Turn.phase_ne_idle _) (hothers k a hki hk)
  · intro k a hk
    by_cases hki : k = i
    · subst hki
      rw [assign_self] at hk ⊢
      exact h.stocked_visited hh hx hk
    · rw [assign_of_ne _ _ hki] at hk ⊢
      have hstock := h.stocked k a hk
      have hactor := Turn.actor?_of_allows hx.turn
      obtain ⟨b, hb⟩ := h.registered hk
      rw [mailOf_effect hh hx hb]
      cases x with
      | put c m =>
        dsimp only
        split
        · rw [List.length_append]
          exact Nat.le_trans hstock (Nat.le_add_right _ _)
        · exact hstock
      | takeMail c =>
        refine Nat.le_trans hstock (Nat.le_of_eq ?_)
        refine (congrArg List.length (if_neg ?_)).symm
        rintro rfl
        exact hothers k c hki hk hactor
      | _ => exact hstock
  · intro k a hk
    rcases debt_before hk with hold | ⟨-, rfl⟩
    · exact h.sick_visited hx (h.debtor k a hold)
    · exact (h.sickened hx).2

end Taken

end ActorSystem
