import ActorSystem.Proofs.Mute
import ActorSystem.Proofs.Shift.Stopping

/-!
# Somebody can always go on

No thread asks for the table's lock or for a worker's mutex with a grip on the table. So whoever
has a grip waits for nobody but, with the claim, for readers, and they wait for nobody; and
whoever has a mutex waits at most for the table. Hence a thread that waits for the table or for
a mutex waits for one that can go on.

* `table_moves`, `mutex_moves`: who has the table, or a mutex, leads to somebody who can go on.
* `shift_flows`: nobody waits for ever for the locks alone.
-/

namespace ActorSystem

variable {σ : Signature} {company : Company σ} {workers : Nat} {c : Shift σ} {t : Thread}

/-- The motion is one to or from the table's lock. -/
def Motion.isLock : Motion σ → Bool
  | atom (.lock _) => true
  | _ => false

theorem Motion.isLock_iff {x : Motion σ} : x.isLock ↔ ∃ op, x = .atom (.lock op) := by
  constructor
  · intro h
    cases x with
    | signal w op => cases h
    | atom x => cases x <;> first | exact ⟨_, rfl⟩ | cases h
  · rintro ⟨op, rfl⟩
    rfl

namespace Shift

theorem step_of_next {x : Motion σ} (hnext : c.next workers t = some x) (hready : x.ready c.site) :
    (c.step company workers (.of t)).isSome := by
  cases t with
  | worker w =>
    simp only [next] at hnext
    split at hnext
    · rename_i hw
      obtain ⟨⟨x, f⟩, hx, rfl⟩ := Option.map_eq_some_iff.mp hnext
      simp [Move.of, step, hw, hx, hready]
    · cases hnext
  | caller k =>
    simp only [next] at hnext
    split at hnext
    · rename_i call x f hk
      cases hnext
      simp [Move.of, step, hk, hready]
    · cases hnext

/-- The thread waits for the table's lock or for a mutex. A worker that sleeps waits for neither
until it is notified. -/
def Blocked (c : Shift σ) (x : Motion σ) : Prop :=
  x.ready c.site = false ∧ ((∃ op, x = .atom (.lock op)) ∨ (∃ w, x = .signal w .lock) ∨
    ∃ w, x = .signal w .wake ∧ (c.site.signals w).parked = false)

/-- The thread can make its next motion. -/
def CanGo (c : Shift σ) (workers : Nat) (t : Thread) : Prop :=
  ∃ x, c.next workers t = some x ∧ x.ready c.site

end Shift

namespace Hand

variable {h : Hand} {x : Motion σ} {s : Site σ}

/-- Whoever has a grip on the table waits at most for the readers, with the claim. -/
theorem ready_of_grip (hmay : h.may workers x) (hgrip : h.grip ≠ .away)
    (hclaiming : h.grip = .claiming → s.world.pool.tableLock.readers = 0) : x.ready s := by
  cases x with
  | atom x =>
    cases x with
    | lock op =>
      cases op with
      | enterRead | claim => exact absurd hmay hgrip
      | leaveRead | leaveWrite => rfl
      | awaitReaders => exact decide_eq_true (hclaiming hmay)
    | takeMail a => exact absurd hmay hgrip
    | _ => rfl
  | signal w op =>
    cases op with
    | lock | wake => exact absurd hmay.2.2 hgrip
    | _ => rfl

/-- On duty nobody waits with a mutex. -/
theorem ready_of_mutex {sweeps : Bool} (hallows : h.allows workers sweeps x) {w : Nat}
    (hmutex : h.mutex = some w) : x.ready s := by
  cases x with
  | atom x => exact nomatch hmutex.symm.trans hallows.2.1
  | signal v op =>
    cases op with
    | lock => exact nomatch hmutex.symm.trans hallows.2.1
    | unlock | setStop | notify => rfl
    | readStop | park | wake => exact hallows.elim

end Hand

theorem Atom.ready_of_aloof {x : Atom σ} (hx : x.aloof ∨ x = .lock .leaveRead) (w : World σ) :
    x.ready w := by
  rcases hx with hx | rfl
  · cases x <;> first | rfl | cases hx
  · rfl

namespace Accounts

theorem table_moves (hl : Lawful workers c) (ha : Accounts workers c)
    (h : c.site.world.pool.tableLock.hasWriter ∨ 0 < c.site.world.pool.tableLock.readers) :
    ∃ t, c.CanGo workers t := by
  have hgo : ∀ t, (c.hand workers t).grip ≠ .away → ((c.hand workers t).grip = .claiming →
      c.site.world.pool.tableLock.readers = 0) → c.CanGo workers t := by
    intro t hgrip hclaiming
    obtain ⟨x, hx⟩ := hl.exists_next fun hidle => hgrip hidle.grip
    exact ⟨x, hx, Hand.ready_of_grip (hl.may_next hx) hgrip hclaiming⟩
  by_cases hreaders : 0 < c.site.world.pool.tableLock.readers
  · obtain ⟨t, ht⟩ := ha.readers.exists_of_pos hreaders
    exact ⟨t, hgo t (by simp [ht]) (by simp [ht])⟩
  · obtain ⟨t, ht⟩ := ha.writer.some.mp (h.resolve_right hreaders)
    refine ⟨t, hgo t (fun haway => ?_) fun _ => Nat.eq_zero_of_not_pos hreaders⟩
    rw [haway] at ht
    exact Bool.false_ne_true ht

theorem enterRead_blocked {s : LockState} (h : s.admits .enterRead = false) :
    s.hasWriter ∨ 0 < s.readers := by
  by_contra hno
  simp only [not_or, Nat.not_lt, Nat.le_zero_eq, Bool.not_eq_true] at hno
  have hmax : 0 < LockState.maxReaders := by decide
  simp [LockState.admits, LockState.letsReadersIn, hno, hmax] at h

/-- Whoever has a mutex goes on, or waits for the table. -/
theorem mutex_next (hl : Lawful workers c) {w : Nat} (h : (c.hand workers t).mutex = some w) :
    ∃ x, c.next workers t = some x ∧ (x.ready c.site ∨ x = .atom (.lock .enterRead)) := by
  obtain ⟨x, hx⟩ := hl.exists_next (t := t) fun hidle => nomatch h.symm.trans hidle.mutex
  refine ⟨x, hx, ?_⟩
  rcases Shift.next_cases hx with ⟨v, f, rfl, -, hnext⟩ | ⟨k, call, f, rfl, hk⟩
  · have hfits := hl.places v
    cases hplace : c.places v with
    | hired | head | ready | swept | asleep | quitting | gone =>
      rw [hplace] at hfits
      exact nomatch h.symm.trans hfits.mutex
    | sweeping y next =>
      rw [hplace] at hfits hnext
      cases hnext
      exact .inl (Hand.ready_of_mutex hfits.1 h)
    | look y next =>
      rw [hplace] at hfits hnext
      cases hnext
      exact .inl (Atom.ready_of_aloof hfits.2.2.2.1 _)
    | enter =>
      rw [hplace] at hnext
      cases hnext
      exact .inr rfl
    | peek | peeked | test | check | checked | doze =>
      rw [hplace] at hnext
      cases hnext
      exact .inl rfl
  · have hsuits := hl.calls k
    rw [hk] at hsuits
    exact .inl (Hand.ready_of_mutex hsuits.1 h)

theorem mutex_moves (hl : Lawful workers c) (ha : Accounts workers c) {w : Nat}
    (h : (c.site.signals w).locked) : ∃ t, c.CanGo workers t := by
  obtain ⟨t, ht⟩ := (ha.mutexes w).some.mp h
  obtain ⟨x, hx, hready⟩ := mutex_next hl ht
  by_cases hgoes : x.ready c.site
  · exact ⟨t, x, hx, hgoes⟩
  · obtain rfl := hready.resolve_left hgoes
    exact table_moves hl ha (enterRead_blocked (Bool.eq_false_iff.mpr hgoes))

theorem moves_of_blocked (hl : Lawful workers c) (ha : Accounts workers c) {x : Motion σ}
    (h : c.Blocked x) : ∃ t, c.CanGo workers t := by
  obtain ⟨hready, ⟨op, rfl⟩ | ⟨w, rfl⟩ | ⟨w, rfl, hnotified⟩⟩ := h
  · cases op with
    | enterRead => exact table_moves hl ha (enterRead_blocked hready)
    | claim =>
      refine table_moves hl ha (.inl ?_)
      simpa [Motion.ready, Atom.ready, LockState.admits] using hready
    | awaitReaders =>
      refine table_moves hl ha (.inr (Nat.pos_of_ne_zero ?_))
      simpa [Motion.ready, Atom.ready, LockState.admits] using hready
    | leaveRead | leaveWrite => cases hready
  · have hlocked : (c.site.signals w).locked := by
      simpa [Motion.ready, Signal.admits] using hready
    exact mutex_moves hl ha hlocked
  · have hlocked : (c.site.signals w).locked := by
      simpa [Motion.ready, Signal.admits, hnotified] using hready
    exact mutex_moves hl ha hlocked

end Accounts

/-! ## The locks of the runtime -/

/-- What holds between two moves of a shift. -/
structure Flows (company : Company σ) (workers : Nat) (c : Shift σ) : Prop where
  /-- No thread asks for the table's lock with a grip on it. -/
  once : ∀ t op, c.next workers t = some (.atom (.lock op)) → op = .enterRead ∨ op = .claim →
    (c.hand workers t).grip = .away
  /-- No thread asks for a mutex with a grip on the table. -/
  apart : ∀ t w op, c.next workers t = some (.signal w op) → op = .lock ∨ op = .wake →
    (c.hand workers t).grip = .away
  /-- If a thread waits for the table's lock or for a mutex, then there is one that can go on. -/
  moves : ∀ t x, c.next workers t = some x → c.Blocked x →
    ∃ u, c.CanGo workers u ∧ (c.step company workers (.of u)).isSome

theorem shift_flows (hc : company.Civil) {config : Config} {env : σ.Env}
    {ms : List (Shift.Move σ)} (h : (Shift.start config env).play company workers ms = some c) :
    Flows company workers c := by
  obtain ⟨hl, ha, -⟩ := (Steady.start config env).play hc h
  refine ⟨fun t op hnext hop => ?_, fun t w op hnext hop => ?_, fun t x _ hblocked => ?_⟩
  · have hmay := hl.may_next hnext
    rcases hop with rfl | rfl <;> exact hmay
  · have hmay := hl.may_next hnext
    rcases hop with rfl | rfl <;> exact hmay.2.2
  · obtain ⟨u, x, hx, hready⟩ := ha.moves_of_blocked hl hblocked
    exact ⟨u, ⟨x, hx, hready⟩, Shift.step_of_next hx hready⟩

/-- A caller claims the table for a new actor, and a worker that has begun to sweep waits to
read it. -/
def Mute.sweepBehindRegister : List (Shift.Move Mute.signature) :=
  [.call 0 (.serve (.ask (.register ()) fun _ => .done ())), .go 0,
    .work 0, .work 0, .work 0, .work 0, .sweep 0 1, .work 0]

theorem sweepBehindRegister_flows : Mute.company.Civil ∧ ∃ c x,
    (Shift.start {} ()).play Mute.company 1 Mute.sweepBehindRegister = some c ∧
      c.next 1 (.worker 0) = some x ∧ c.Blocked x ∧ Flows Mute.company 1 c := by
  have hcivil : Mute.company.Civil := nofun
  have hrun : ((Shift.start {} ()).play Mute.company 1 Mute.sweepBehindRegister).any (fun c =>
      (c.next 1 (.worker 0)).any fun x => !x.ready c.site && x.isLock) := by decide +kernel
  obtain ⟨c, hplay, hc⟩ := (Option.any_eq_true _ _).mp hrun
  obtain ⟨x, hnext, hx⟩ := (Option.any_eq_true _ _).mp hc
  obtain ⟨hready, hlock⟩ := Bool.and_eq_true_iff.mp hx
  have hblocked : c.Blocked x := ⟨by simpa using hready, .inl (Motion.isLock_iff.mp hlock)⟩
  exact ⟨hcivil, c, x, hplay, hnext, hblocked, shift_flows hcivil hplay⟩

end ActorSystem
