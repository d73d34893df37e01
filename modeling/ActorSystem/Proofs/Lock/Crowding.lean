import Mathlib.Data.List.Induction
import ActorSystem.Proofs.Lock.Intent

/-!
# A full house

The count of readers has a largest value, and a reader who comes when it is reached sleeps at the
gate, without a writer to wait for. Somebody has to tell him when there is room again. The first
reader to leave a full house does so, for one sleeper; those who leave after him tell nobody. So
if several readers sleep there and several leave before the first who was woken is up again, the
others sleep on although there is room for them.

A lock is `Attended` if it has woken as many of the readers at the gate as there is room for. It
is, until somebody leaves in the situation above (`Neglects`), and then it is not.

* `Entered.attends`, `Resumed.attends`, `attends_leaveRead_iff`: what the moves do to the readers at
  the gate.
* `attended_iff_not_neglected`: all that can go wrong. The count never overflows.
* `stampede_forgotten`: three readers sleep, three leave, and one is woken.
-/

namespace ActorSystem

namespace Lock

variable {τ : Type} {l : Lock τ} {t : τ}

/-! ## The readers at the gate -/

/-- How many readers sleep at the gate, or have been woken there and are not up yet. -/
def parked (l : Lock τ) : Nat := l.sleepers.countP fun x => x.bed = .gate .read

/-- How many of them have been woken. -/
def called (l : Lock τ) : Nat := l.sleepers.countP fun x => x.bed = .gate .read && x.woken

/-- Whom there is room for has been woken. -/
def Attends (l : Lock τ) : Prop := min l.parked (LockState.maxReaders - l.state.readers) ≤ l.called

theorem called_le_parked : l.called ≤ l.parked :=
  List.countP_mono_left fun _ _ hx => (Bool.and_eq_true_iff.mp hx).1

theorem parked_of_beds {l' : Lock τ} (h : l'.beds = l.beds) : l'.parked = l.parked := by
  have hbeds : ∀ k : Lock τ, k.parked = k.beds.countP fun x => x.2 = .gate .read := by
    intro k
    rw [beds, List.countP_map]
    rfl
  rw [hbeds, hbeds, h]

theorem attends_of_full (h : LockState.maxReaders ≤ l.state.readers) : l.Attends := by
  unfold Attends
  omega

theorem attends_of_called (h : l.called = l.parked) : l.Attends := by
  unfold Attends
  omega

/-- One sleeper less, if it was one who is counted. -/
theorem countP_rise [DecidableEq τ] {x : Sleeper τ}
    (hx : l.sleepers.find? (·.thread = t) = some x) (p : Sleeper τ → Bool) :
    (l.rise t).sleepers.countP p + (if p x then 1 else 0) = l.sleepers.countP p := by
  obtain ⟨ht, before, after, hsplit, hbefore⟩ := List.find?_eq_some_iff_append.mp hx
  have hrise : (l.rise t).sleepers = before ++ after := by
    rw [rise, hsplit, List.eraseP_append_right _ (by simpa using hbefore)]
    simp [of_decide_eq_true ht]
  rw [hrise, hsplit, List.countP_append, List.countP_append, List.countP_cons]
  omega

/-- A wake-up at the gate is for a reader if no writer is asleep there. -/
theorem called_wakeFirst {ss : List (Sleeper τ)}
    (hwrite : ∀ x ∈ ss, x.bed = .gate .write → x.woken) :
    (wakeFirst Bed.isGate ss).countP (fun x => x.bed = .gate .read && x.woken) =
      min (ss.countP fun x => x.bed = .gate .read)
        (ss.countP (fun x => x.bed = .gate .read && x.woken) + 1) := by
  induction ss with
  | nil => rfl
  | cons x rest ih =>
    have hrest := ih fun y hy => hwrite y (List.mem_cons_of_mem x hy)
    have hle : rest.countP (fun x => x.bed = .gate .read && x.woken) ≤
        rest.countP fun x => x.bed = .gate .read :=
      List.countP_mono_left fun _ _ hx => (Bool.and_eq_true_iff.mp hx).1
    obtain ⟨thread, bed, woken⟩ := x
    simp only [wakeFirst]
    cases bed with
    | drain => simpa [Bed.isGate, List.countP_cons] using hrest
    | gate access =>
      cases woken with
      | true =>
        cases access with
        | read =>
          simp only [Bed.isGate, Bool.not_true, Bool.and_false, Bool.false_eq_true, if_false,
            List.countP_cons, hrest, decide_true, Bool.true_and, if_true]
          omega
        | write => simpa [Bed.isGate] using hrest
      | false =>
        cases access with
        | read =>
          simp only [Bed.isGate, Bool.not_false, Bool.and_true, if_true, List.countP_cons,
            decide_true, Bool.and_false, Bool.false_eq_true, if_false]
          omega
        | write => exact absurd (hwrite _ List.mem_cons_self rfl) Bool.false_ne_true

/-! ## What the moves do to them -/

theorem Entered.attends {access : Access} {r : Bool × Lock τ} (he : l.Entered t access r)
    (h : l.state.hasWriter = false → l.Attends) (hr : r.2.state.hasWriter = false) :
    r.2.Attends := by
  cases he with
  | reads lets =>
    have hl := h hr
    unfold Attends at hl ⊢
    simp only [LockState.addReader, parked, called] at hl ⊢
    omega
  | full _ full => exact attends_of_full full
  | shut writer => exact absurd (hr.symm.trans writer) Bool.false_ne_true
  | writes | waits => cases hr

theorem Resumed.attends [DecidableEq τ] {x : Sleeper τ} {r : Bool × Lock τ}
    (hres : l.Resumed t x.bed r) (hx : l.sleepers.find? (·.thread = t) = some x)
    (h : l.state.hasWriter = false → l.Attends) (hr : r.2.state.hasWriter = false) :
    r.2.Attends := by
  have hparked := countP_rise hx fun x => x.bed = .gate .read
  have hcalled := countP_rise hx fun x => x.bed = .gate .read && x.woken
  obtain ⟨thread, bed, woken⟩ := x
  cases hres with
  | asks entered =>
    cases entered with
    | reads lets =>
      -- whoever was woken takes up the room for which he was woken
      have hl := h hr
      have hroom : l.state.readers < LockState.maxReaders :=
        of_decide_eq_true (Bool.and_eq_true_iff.mp lets).2
      unfold Attends at hl ⊢
      simp only [LockState.addReader, parked, called, rise, decide_true, Bool.true_and, if_true]
        at hl hparked hcalled ⊢
      split at hcalled <;> omega
    | full _ full => exact attends_of_full full
    | shut writer => exact absurd (hr.symm.trans writer) Bool.false_ne_true
    | writes | waits => cases hr
  | writes | waits =>
    have hl := h hr
    unfold Attends at hl ⊢
    simp [sleep, rise, parked, called] at hl hparked hcalled ⊢
    omega

theorem attends_openGate : l.openGate.Attends := by
  refine attends_of_called ?_
  rw [called, parked, openGate, wakeAll, List.countP_map, List.countP_map]
  refine List.countP_congr fun x _ => ?_
  simp only [Function.comp_apply]
  cases hbed : x.bed with
  | drain => simp [Bed.isGate, hbed]
  | gate access => simp [Bed.isGate]

/-- Nobody is left asleep for whom there was room, or more have been woken than there is room
for. -/
def Spared (l : Lock τ) : Prop :=
  l.called = l.parked ∨ LockState.maxReaders < l.state.readers + l.called

/-- The first to leave a full house wakes a reader, if there is one. -/
theorem attends_leaveRead_of_full (hfree : l.state.hasWriter = false)
    (hfull : l.state.readers = LockState.maxReaders)
    (hwrite : ∀ x ∈ l.sleepers, x.bed = .gate .write → x.woken) : l.leaveRead.Attends := by
  have hcalled := called_wakeFirst hwrite
  have hparked : l.leaveRead.parked = l.parked := parked_of_beds beds_leaveRead
  have hsleepers : l.leaveRead.sleepers = wakeFirst Bed.isGate l.sleepers := by
    unfold leaveRead
    simp [LockState.dropReader, hfree, hfull]
  have hpos : 0 < LockState.maxReaders := by decide
  have hstate : l.leaveRead.state.readers = l.state.readers - 1 := rfl
  unfold Attends
  rw [hparked, hstate, called, hsleepers, hcalled, parked]
  omega

/-- Whoever leaves after him wakes nobody. -/
theorem attends_leaveRead_iff (hfree : l.state.hasWriter = false) (hpos : 0 < l.state.readers)
    (hroom : l.state.readers < LockState.maxReaders) : l.leaveRead.Attends ↔ l.Spared := by
  have hparked : l.leaveRead.parked = l.parked := parked_of_beds beds_leaveRead
  have hstate : l.leaveRead.state.readers = l.state.readers - 1 := rfl
  have hsleepers : l.leaveRead.sleepers = l.sleepers := by
    unfold leaveRead
    have hnot : ¬ l.state.readers - 1 = LockState.maxReaders - 1 := by omega
    simp [LockState.dropReader, hfree, hnot]
  have hle := called_le_parked (l := l)
  unfold Attends Spared
  rw [hparked, hstate, called, hsleepers, ← called]
  omega

/-! ## Room in the count -/

theorem Entered.fits {access : Access} {r : Bool × Lock τ} (he : l.Entered t access r)
    (h : l.state.readers ≤ LockState.maxReaders) : r.2.state.readers ≤ LockState.maxReaders := by
  cases he with
  | reads lets => exact of_decide_eq_true (Bool.and_eq_true_iff.mp lets).2
  | full | shut | writes | waits => exact h

theorem Resumed.fits [DecidableEq τ] {bed : Bed} {r : Bool × Lock τ} (hr : l.Resumed t bed r)
    (h : l.state.readers ≤ LockState.maxReaders) : r.2.state.readers ≤ LockState.maxReaders := by
  cases hr with
  | asks entered => exact entered.fits h
  | writes | waits => exact h

end Lock

namespace Guarded

variable {τ α : Type} [DecidableEq τ] {s s' : Guarded τ α} {value : α}
variable {m : Move τ α} {ms : List (Move τ α)}

/-! ## What every run keeps -/

/-- The count of readers is a machine word. -/
def Fits (s : Guarded τ α) : Prop := s.lock.state.readers ≤ LockState.maxReaders

theorem Fits.step (h : s.Fits) (hs : s.step m = some s') : s'.Fits := by
  cases made_of_step hs with
  | @asked _ t wish =>
    rw [Fits, lock_answer]
    exact (Lock.entered s.lock t wish.access).fits h
  | resumed _ found =>
    rw [Fits, lock_answer]
    exact (Lock.resumed found).fits h
  | wrote | droppedWrite | opened | turned => exact h
  | droppedRead | steppedOut => exact Nat.le_trans (Nat.sub_le _ 1) h

theorem Fits.play (hs : (new value).play ms = some s) : s.Fits := by
  have hnew : (new value : Guarded τ α).Fits := Nat.zero_le _
  exact Moves.play_induction (fun _ _ _ h hm => h.step hm) hnew hs

/-- Writers at the gate have a writer to wait for, or one who is about to open it. -/
theorem writers_watched (hs : (new value).play ms = some s) :
    s.Watched (· == .gate .write) := by
  have hgate : ∀ bed : Bed, (bed == .gate .write) → bed.isGate := by
    intro bed hbed
    rw [eq_of_beq hbed]
    rfl
  have hstep : ∀ (r r' : Guarded τ α) m, r.Watched (· == .gate .write) → r.step m = some r' →
      r'.Watched (· == .gate .write) := fun _ _ _ hr hm => hr.step hgate nofun hm
  exact Moves.play_induction hstep (Watched.new _ value) hs

/-! ## Readers who are left behind -/

/-- There is no writer, nor anybody who has given up the claim and has yet to open the gate. -/
def Unclaimed (s : Guarded τ α) : Prop :=
  s.lock.state.hasWriter = false ∧ ∀ t, (s.visitors t).opening = false

/-- Without a writer, as many readers at the gate have been woken as there is room for. -/
def Attended (s : Guarded τ α) : Prop := s.Unclaimed → s.lock.Attends

/-- A reader leaves: he drops his guard, or steps out for a call. -/
def Leaves (s s' : Guarded τ α) : Prop :=
  ∃ g, s.Holds g .read ∧ (s' = s.dropRead g ∨ ∃ t, s' = s.stepOut t g)

/-- A reader leaves a lock without a writer that is not full any more, somebody sleeps on at the
gate, and no more have been woken than there was room for already. -/
structure Neglects (s s' : Guarded τ α) : Prop where
  leaves : s.Leaves s'
  unclaimed : s.Unclaimed
  room : s.lock.state.readers < LockState.maxReaders
  asleep : s.lock.called < s.lock.parked
  few : s.lock.state.readers + s.lock.called ≤ LockState.maxReaders

theorem Leaves.lock_eq (h : s.Leaves s') : s'.lock = s.lock.leaveRead := by
  obtain ⟨g, -, rfl | ⟨t, rfl⟩⟩ := h <;> rfl

theorem Leaves.unclaimed_iff (h : s.Leaves s') : s'.Unclaimed ↔ s.Unclaimed := by
  have hopening : ∀ u, (s'.visitors u).opening = (s.visitors u).opening := by
    obtain ⟨g, -, rfl | ⟨t, rfl⟩⟩ := h
    · exact fun _ => rfl
    · exact part_setVisitor Visitor.opening rfl
  simp only [Unclaimed, h.lock_eq, hopening]
  rfl

theorem Leaves.readers_pos (h : s.Leaves s') (hsound : s.Sound) : 0 < s.lock.state.readers := by
  obtain ⟨g, hg, -⟩ := h
  rw [hsound.balanced.readers]
  exact count_pos_iff.mpr ⟨g, hg⟩

theorem neglects_iff (h : s.Leaves s') (hfree : s.Unclaimed)
    (hroom : s.lock.state.readers < LockState.maxReaders) : s.Neglects s' ↔ ¬ s.lock.Spared := by
  have hle := s.lock.called_le_parked
  constructor
  · rintro ⟨-, -, -, asleep, few⟩ (hall | hmany) <;> omega
  · intro hnot
    have hnot := not_or.mp hnot
    exact ⟨h, hfree, hroom, by omega, by omega⟩

/-- What was attended to is attended to after every other move. -/
theorem Attended.step (h : s.Attended) (hsound : s.Sound) (hfits : s.Fits)
    (hwatched : s.Watched (· == .gate .write)) (hs : s.step m = some s')
    (hm : ¬ s.Neglects s') : s'.Attended := by
  have hleave : s.Leaves s' → s'.Attended := by
    intro hleaves hfree'
    have hfree := hleaves.unclaimed_iff.mp hfree'
    rw [hleaves.lock_eq]
    rcases Nat.lt_or_eq_of_le hfits with hroom | hfull
    · have hspared := not_not.mp (mt (neglects_iff hleaves hfree hroom).mpr hm)
      exact (Lock.attends_leaveRead_iff hfree.1 (hleaves.readers_pos hsound) hroom).mpr hspared
    · refine Lock.attends_leaveRead_of_full hfree.1 hfull fun x hx hbed => ?_
      by_contra hwoken
      have hnobody := hwatched ⟨x, hx, by simp [hbed], Bool.eq_false_iff.mpr hwoken⟩
      simp [hfree.1, hfree.2] at hnobody
  have hanswer : ∀ (u : τ) (wish : Wish) (r : Bool × Lock τ),
      ((s.lock.state.hasWriter = false → s.lock.Attends) → r.2.state.hasWriter = false →
        r.2.Attends) → (s.answer u wish r).Attended := by
    intro u wish r hr hfree
    simp only [Unclaimed, lock_answer, opening_answer] at hfree
    rw [lock_answer]
    exact hr (fun hwriter => h ⟨hwriter, hfree.2⟩) hfree.1
  cases made_of_step hs with
  | @asked _ t wish => exact hanswer t wish _ (Lock.entered s.lock t wish.access).attends
  | @resumed t wish _ _ found => exact hanswer t wish _ ((Lock.resumed found).attends found)
  | wrote => exact h
  | droppedRead held => exact hleave ⟨_, holds_of_held? held, .inl rfl⟩
  | @droppedWrite t =>
    intro hfree
    have hopening := hfree.2 t
    rw [dropWrite, visitors_setVisitor, if_pos rfl] at hopening
    cases hopening
  | steppedOut _ held => exact hleave ⟨_, holds_of_held? held, .inr ⟨_, rfl⟩⟩
  | opened => exact fun _ => Lock.attends_openGate
  | turned _ _ _ opening =>
    intro hfree
    refine h ⟨hfree.1, fun u => ?_⟩
    rw [← part_setVisitor Visitor.opening opening u]
    exact hfree.2 u

theorem Neglects.not_attended (h : s.Neglects s') (hsound : s.Sound) : ¬ s'.Attended := by
  intro hattended
  have hattends := hattended (h.leaves.unclaimed_iff.mpr h.unclaimed)
  rw [h.leaves.lock_eq, Lock.attends_leaveRead_iff h.unclaimed.1 (h.leaves.readers_pos hsound)
    h.room] at hattends
  exact (neglects_iff h.leaves h.unclaimed h.room).mp h hattends

/-! ## Whole runs -/

/-- At some move of the run, readers are left asleep for whom there is room. -/
def Neglected (value : α) (ms : List (Move τ α)) : Prop :=
  ∃ (k : Nat) (m : Move τ α) (s s' : Guarded τ α), ms[k]? = some m ∧
    (new value).play (ms.take k) = some s ∧ s.step m = some s' ∧ s.Neglects s'

theorem Neglected.of_append {ns : List (Move τ α)} (h : Neglected value ms) :
    Neglected value (ms ++ ns) := by
  obtain ⟨k, m, s, s', hm, hplay, hstep, hneglects⟩ := h
  have hk := (List.getElem?_eq_some_iff.mp hm).1
  refine ⟨k, m, s, s', ?_, ?_, hstep, hneglects⟩
  · rw [List.getElem?_append_left hk, hm]
  · rwa [List.take_append_of_le_length (Nat.le_of_lt hk)]

theorem attended_play (hplay : (new value).play ms = some s) (hms : ¬ Neglected value ms) :
    s.Attended := by
  induction ms using List.reverseRecOn generalizing s with
  | nil =>
    cases hplay
    exact fun _ => Lock.attends_of_called rfl
  | append_singleton ms m ih =>
    obtain ⟨r, hr, hstep⟩ := Moves.play_snoc.mp hplay
    have hsound : r.Sound := (Sound.new value).play hr
    refine (ih hr fun h => hms h.of_append).step hsound (Fits.play hr) (writers_watched hr) hstep ?_
    intro hneglects
    refine hms ⟨ms.length, m, r, s, ?_, ?_, hstep, hneglects⟩
    · simp
    · rw [List.take_left]
      exact hr

/-- The count of readers never overflows. Without a writer, whoever there is room for has been
woken, at all times of a run, if and only if no reader leaves while others are asleep whom neither
he nor anybody before him wakes. -/
theorem attended_iff_not_neglected (value : α) (ms : List (Move τ α)) :
    (∀ (k : Nat) (s : Guarded τ α), (new value).play (ms.take k) = some s → s.Fits) ∧
    ((∀ (k : Nat) (s : Guarded τ α), (new value).play (ms.take k) = some s → s.Attended) ↔
      ¬ Neglected value ms) := by
  refine ⟨fun k s hs => Fits.play hs, ?_, ?_⟩
  · rintro hattended ⟨k, m, s, s', hm, hs, hstep, hneglects⟩
    refine hneglects.not_attended ((Sound.new value).play hs) (hattended (k + 1) s' ?_)
    have htake : ms.take (k + 1) = ms.take k ++ [m] := by
      rw [List.take_add_one, hm, Option.toList_some]
    rw [htake]
    exact Moves.play_snoc.mpr ⟨s, hs, hstep⟩
  · intro hms k s hs
    refine attended_play hs fun h => hms ?_
    have hwhole : Neglected value (ms.take k ++ ms.drop k) := h.of_append
    rwa [List.take_append_drop] at hwhole

/-! ## Three readers who come late -/

/-- So many readers inside, with a guard each. -/
def crowded (n : Nat) : Guarded Nat Nat where
  lock := { state := { readers := n } }
  value := 0
  guards := .replicate n { access := .read, view := 0 }

theorem play_crowded {n : Nat} (hn : n ≤ LockState.maxReaders) :
    (new 0).play (List.replicate n (.enter 0 .read)) = some (crowded n) := by
  induction n with
  | zero => rfl
  | succ n ih =>
    have hroom : n < LockState.maxReaders := hn
    have henter : (crowded n).step (.enter 0 .read) = some (crowded (n + 1)) := by
      simp [step, crowded, Visitor.awake, Lock.enter, LockState.letsReadersIn, hroom, answer, grant,
        setVisitor, LockState.addReader, Array.replicate_succ]
    rw [List.replicate_succ']
    exact Moves.play_snoc.mpr ⟨crowded n, ih (Nat.le_of_lt hroom), henter⟩

/-- The house is full, and three more readers have come. -/
def full : Guarded Nat Nat where
  lock := {
    state := { readers := LockState.maxReaders }
    sleepers := [⟨1, .gate .read, false⟩, ⟨2, .gate .read, false⟩, ⟨3, .gate .read, false⟩] }
  value := 0
  guards := .replicate LockState.maxReaders { access := .read, view := 0 }
  visitors := Function.update (Function.update (Function.update (fun _ => {})
    1 { wish := some (.enter .read) }) 2 { wish := some (.enter .read) })
    3 { wish := some (.enter .read) }

/-- So many readers come in that the house is full. Three more come, and three leave. -/
def stampede : List (Move Nat Nat) :=
  List.replicate LockState.maxReaders (.enter 0 .read) ++
    [.enter 1 .read, .enter 2 .read, .enter 3 .read] ++ [.drop 0 0] ++ [.drop 0 1] ++ [.drop 0 2]

theorem play_full : (new 0).play (List.replicate LockState.maxReaders (.enter 0 .read) ++
    [.enter 1 .read, .enter 2 .read, .enter 3 .read]) = some full := by
  rw [play, Moves.play_append, ← play, play_crowded (Nat.le_refl LockState.maxReaders)]
  simp [Moves.play, step, crowded, full, Visitor.awake, Lock.enter, LockState.letsReadersIn, answer,
    setVisitor, Lock.sleep]

theorem step_drop {s : Guarded Nat Nat} {t g : Nat} {x : Guard Nat Nat}
    (hawake : (s.visitors t).awake) (hx : s.held? g .read = some x) :
    s.step (.drop t g) = some (s.dropRead g) := by
  simp [step, hawake, hx]

/-- One of the three is woken; the others sleep on, and there is room for all of them. -/
theorem stampede_forgotten : ∃ s : Guarded Nat Nat, (new 0).play stampede = some s ∧
    s.lock.state = { readers := LockState.maxReaders - 3 } ∧
    s.lock.sleepers = [⟨1, .gate .read, true⟩, ⟨2, .gate .read, false⟩, ⟨3, .gate .read, false⟩] ∧
    s.Unclaimed ∧ ¬ s.Attended := by
  have hmax : 3 < LockState.maxReaders := by decide
  have hheld : ∀ g < 3, full.guards[g]? = some { access := .read, view := 0 } := by
    intro g hg
    have hlt : g < LockState.maxReaders := Nat.lt_trans hg hmax
    simp [full, hlt]
  have hfirst : full.held? 0 .read = some { access := .read, view := 0 } := by
    simp [held?, hheld, Guard.isHeld]
  have hsecond : (full.dropRead 0).held? 1 .read = some { access := .read, view := 0 } := by
    simp [held?, dropRead, setHold, hheld, Guard.isHeld, Array.getElem?_modify]
  have hthird : ((full.dropRead 0).dropRead 1).held? 2 .read =
      some { access := .read, view := 0 } := by
    simp [held?, dropRead, setHold, hheld, Guard.isHeld, Array.getElem?_modify]
  have hsleepers : (((full.dropRead 0).dropRead 1).dropRead 2).lock.sleepers =
      [⟨1, .gate .read, true⟩, ⟨2, .gate .read, false⟩, ⟨3, .gate .read, false⟩] := by
    have hlater : ¬ LockState.maxReaders - 1 - 1 = LockState.maxReaders - 1 := by omega
    have hlast : ¬ LockState.maxReaders - 1 - 1 - 1 = LockState.maxReaders - 1 := by omega
    simp [dropRead, setHold, Lock.leaveRead, LockState.dropReader, full, Lock.wakeFirst, Bed.isGate,
      hlater, hlast]
  have hstate : (((full.dropRead 0).dropRead 1).dropRead 2).lock.state =
      { readers := LockState.maxReaders - 3 } := rfl
  have hfree : (((full.dropRead 0).dropRead 1).dropRead 2).Unclaimed := by
    refine ⟨rfl, fun t => ?_⟩
    simp only [dropRead, setHold, full, Function.update_apply]
    split_ifs <;> rfl
  refine ⟨((full.dropRead 0).dropRead 1).dropRead 2, ?_, hstate, hsleepers, hfree, fun h => ?_⟩
  · refine Moves.play_snoc.mpr ⟨_, Moves.play_snoc.mpr ⟨_, ?_, step_drop rfl hsecond⟩,
      step_drop rfl hthird⟩
    exact Moves.play_snoc.mpr ⟨full, play_full, step_drop rfl hfirst⟩
  · have hattends := h hfree
    unfold Lock.Attends at hattends
    simp [Lock.parked, Lock.called, hsleepers, hstate] at hattends
    omega

end Guarded

end ActorSystem
