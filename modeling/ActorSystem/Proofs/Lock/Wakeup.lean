import ActorSystem.Proofs.Lock.Guards

/-!
# No lost wake-up

A thread that sleeps at a reader/writer lock, and that nobody has woken, has somebody to wait
for: at the gate a writer, who will open it, and at the drain a reader, who will leave. So when
all guards are dropped and every wake-up has gone out, nobody sleeps.

A reader who finds the count of readers at its limit sleeps at the gate without a writer, and
waits for the next reader to leave. The count stays below the limit here.

* `Lock.Entered`, `Lock.Resumed`: all that can come of asking for access.
* `Alert`: the invariant, kept by every move as long as there is room for readers.
* `lock_loses_no_wakeup`: what holds after every run.
-/

namespace ActorSystem

namespace Lock

variable {τ : Type} {l : Lock τ} {t : τ} {p : Bed → Bool}

/-! ## What asking comes to -/

inductive Entered (l : Lock τ) (t : τ) : Access → Bool × Lock τ → Prop where
  | reads (lets : l.state.letsReadersIn) :
    Entered l t .read (true, { l with state := l.state.addReader })
  | full (none : l.state.hasWriter = false) (full : LockState.maxReaders ≤ l.state.readers) :
    Entered l t .read (false, l.sleep t (.gate .read))
  | shut {access : Access} (writer : l.state.hasWriter) :
    Entered l t access (false, l.sleep t (.gate access))
  | writes (none : l.state.hasWriter = false) (empty : l.state.readers = 0) :
    Entered l t .write (true, { l with state := l.state.claim })
  | waits (none : l.state.hasWriter = false) (readers : 0 < l.state.readers) :
    Entered l t .write (false, { l with state := l.state.claim }.sleep t .drain)

theorem entered (l : Lock τ) (t : τ) (access : Access) :
    l.Entered t access (l.enter t access) := by
  cases access with
  | read =>
    unfold enter
    dsimp only
    split
    · rename_i hlets
      exact .reads hlets
    · rename_i hlets
      cases hwriter : l.state.hasWriter with
      | true => exact .shut hwriter
      | false =>
        refine .full hwriter (Nat.le_of_not_gt fun hroom => hlets ?_)
        simp [LockState.letsReadersIn, hwriter, hroom]
  | write =>
    unfold enter
    dsimp only
    split
    · rename_i hwriter
      exact .shut hwriter
    · rename_i hwriter
      have hnone := Bool.eq_false_iff.mpr hwriter
      unfold enterClaimed
      split
      · rename_i hempty
        exact .writes hnone hempty
      · rename_i hreaders
        exact .waits hnone (Nat.pos_of_ne_zero hreaders)

inductive Resumed [DecidableEq τ] (l : Lock τ) (t : τ) : Bed → Bool × Lock τ → Prop where
  | asks {access : Access} {r : Bool × Lock τ} (entered : (l.rise t).Entered t access r) :
    Resumed l t (.gate access) r
  | writes (empty : l.state.readers = 0) : Resumed l t .drain (true, l.rise t)
  | waits (readers : 0 < l.state.readers) : Resumed l t .drain (false, (l.rise t).sleep t .drain)

theorem resumed [DecidableEq τ] {x : Sleeper τ}
    (hx : l.sleepers.find? (·.thread = t) = some x) : l.Resumed t x.bed (l.resume x) := by
  have ht := thread_of_find? hx
  subst ht
  unfold resume
  cases x.bed with
  | gate access => exact .asks (entered _ _ _)
  | drain =>
    dsimp only
    unfold enterClaimed
    split
    · rename_i hempty
      exact .writes hempty
    · rename_i hreaders
      exact .waits (Nat.pos_of_ne_zero hreaders)

theorem Entered.readers_le {access : Access} {r : Bool × Lock τ} (he : l.Entered t access r) :
    r.2.state.readers ≤ l.state.readers + 1 := by
  cases he with
  | reads => exact Nat.le_refl _
  | full | shut | writes | waits => exact Nat.le_succ _

theorem Resumed.readers_le [DecidableEq τ] {bed : Bed} {r : Bool × Lock τ}
    (hr : l.Resumed t bed r) : r.2.state.readers ≤ l.state.readers + 1 := by
  cases hr with
  | asks entered => exact entered.readers_le
  | writes | waits => exact Nat.le_succ _

/-! ## Sleepers that nobody has woken -/

/-- Somebody sleeps in such a bed, and nobody has woken him. -/
def Waits (l : Lock τ) (p : Bed → Bool) : Prop :=
  ∃ x ∈ l.sleepers, p x.bed ∧ x.woken = false

theorem Waits.mono {l' : Lock τ} (h : l'.Waits p) (hl : l'.sleepers ⊆ l.sleepers) : l.Waits p := by
  obtain ⟨x, hx, hbed, hwoken⟩ := h
  exact ⟨x, hl hx, hbed, hwoken⟩

theorem waits_sleep {bed : Bed} (h : (l.sleep t bed).Waits p) : p bed ∨ l.Waits p := by
  obtain ⟨x, hx, hbed, hwoken⟩ := h
  rcases List.mem_append.mp hx with hx | hx
  · exact .inr ⟨x, hx, hbed, hwoken⟩
  · cases List.mem_singleton.mp hx
    exact .inl hbed

theorem waits_rise [DecidableEq τ] (h : (l.rise t).Waits p) : l.Waits p :=
  h.mono List.eraseP_subset

/-- Who is not awake after a wake-up was asleep before it. -/
theorem mem_of_mem_wakeFirst {q : Bed → Bool} {ss : List (Sleeper τ)} {x : Sleeper τ}
    (hx : x ∈ wakeFirst q ss) (hwoken : x.woken = false) : x ∈ ss := by
  induction ss with
  | nil => exact hx
  | cons y rest ih =>
    simp only [wakeFirst] at hx
    split at hx
    · rcases List.mem_cons.mp hx with rfl | hx
      · cases hwoken
      · exact List.mem_cons_of_mem y hx
    · rcases List.mem_cons.mp hx with rfl | hx
      · exact List.mem_cons_self
      · exact List.mem_cons_of_mem y (ih hx)

/-- One wake-up is enough for a single sleeper. -/
theorem woken_of_wakeFirst {ss : List (Sleeper τ)} (hone : ss.countP (fun x => p x.bed) ≤ 1)
    {x : Sleeper τ} (hx : x ∈ wakeFirst p ss) (hbed : p x.bed) : x.woken := by
  induction ss with
  | nil => cases hx
  | cons y rest ih =>
    rw [List.countP_cons] at hone
    have hrest : x ∈ rest → p y.bed = false := by
      intro hx
      by_contra hy
      have hpos : 0 < rest.countP (fun x => p x.bed) := List.countP_pos_iff.mpr ⟨x, hx, hbed⟩
      rw [if_pos (Bool.of_not_eq_false hy)] at hone
      omega
    simp only [wakeFirst] at hx
    split at hx
    · rename_i hy
      rcases List.mem_cons.mp hx with rfl | hx
      · rfl
      · simp [hrest hx] at hy
    · rename_i hy
      rcases List.mem_cons.mp hx with rfl | hx
      · simpa [hbed] using hy
      · exact ih (Nat.le_of_add_right_le hone) hx

theorem waits_leaveRead (h : l.leaveRead.Waits p) : l.Waits p := by
  obtain ⟨x, hx, hbed, hwoken⟩ := h
  refine ⟨x, ?_, hbed, hwoken⟩
  unfold leaveRead at hx
  dsimp only at hx
  split at hx
  · split at hx
    · exact mem_of_mem_wakeFirst hx hwoken
    · exact hx
  · split at hx
    · exact mem_of_mem_wakeFirst hx hwoken
    · exact hx

theorem countP_drain : l.sleepers.countP (fun x => x.bed == .drain) = l.drains := by
  rw [drains, beds, List.countP_map]
  exact List.countP_congr fun x _ => by simp

theorem waits_openGate (h : l.openGate.Waits p) :
    l.Waits p ∧ ∃ bed, p bed ∧ bed.isGate = false := by
  obtain ⟨x, hx, hbed, hwoken⟩ := h
  obtain ⟨y, hy, rfl⟩ := List.mem_map.mp hx
  by_cases hgate : y.bed.isGate
  · rw [if_pos hgate] at hwoken
    cases hwoken
  · rw [if_neg hgate] at hbed hwoken
    exact ⟨⟨y, hy, hbed, hwoken⟩, y.bed, hbed, Bool.eq_false_iff.mpr hgate⟩

/-! ### At the gate -/

/-- Whoever comes to the gate and has to sleep finds a writer, unless he is a reader and there is
no room. -/
theorem Entered.gate {access : Access} {r : Bool × Lock τ} {opening : Prop}
    (he : l.Entered t access r)
    (hroom : p (.gate .read) → l.state.readers < LockState.maxReaders)
    (h : l.Waits p → l.state.hasWriter ∨ opening) (hr : r.2.Waits p) :
    r.2.state.hasWriter ∨ opening := by
  cases he with
  | reads => exact h hr
  | full _ full =>
    rcases waits_sleep hr with hread | hr
    · exact absurd (hroom hread) (Nat.not_lt_of_le full)
    · exact h hr
  | shut writer => exact .inl writer
  | writes | waits => exact .inl rfl

theorem Resumed.gate [DecidableEq τ] {bed : Bed} {r : Bool × Lock τ} {opening : Prop}
    (hr : l.Resumed t bed r) (hp : ∀ bed, p bed → bed.isGate)
    (hroom : p (.gate .read) → l.state.readers < LockState.maxReaders)
    (h : l.Waits p → l.state.hasWriter ∨ opening) (hwaits : r.2.Waits p) :
    r.2.state.hasWriter ∨ opening := by
  cases hr with
  | asks entered => exact entered.gate hroom (fun hrise => h (waits_rise hrise)) hwaits
  | writes => exact h (waits_rise hwaits)
  | waits =>
    rcases waits_sleep hwaits with hdrain | hwaits
    · exact nomatch hp .drain hdrain
    · exact h (waits_rise hwaits)

/-! ### At the drain -/

theorem Entered.drain {access : Access} {r : Bool × Lock τ} (he : l.Entered t access r)
    (h : l.Waits (· == .drain) → 0 < l.state.readers) (hr : r.2.Waits (· == .drain)) :
    0 < r.2.state.readers := by
  cases he with
  | reads => exact Nat.succ_pos _
  | full | shut => exact h ((waits_sleep hr).resolve_left nofun)
  | writes => exact h hr
  | waits _ readers => exact readers

theorem Resumed.drain [DecidableEq τ] {bed : Bed} {r : Bool × Lock τ} (hr : l.Resumed t bed r)
    (h : l.Waits (· == .drain) → 0 < l.state.readers) (hwaits : r.2.Waits (· == .drain)) :
    0 < r.2.state.readers := by
  cases hr with
  | asks entered => exact entered.drain (fun hrise => h (waits_rise hrise)) hwaits
  | writes => exact h (waits_rise hwaits)
  | waits readers => exact readers

theorem Balanced.drains_le_one {reading writing : Nat} (h : l.Balanced reading writing) :
    l.drains ≤ 1 := by
  have hclaims := h.claims
  split at hclaims <;> omega

/-- The last reader to leave wakes the one who waits for him. -/
theorem Balanced.drain_leaveRead {reading writing : Nat} (h : l.Balanced reading writing)
    (hwaits : l.leaveRead.Waits (· == .drain)) : 0 < l.leaveRead.state.readers := by
  obtain ⟨x, hx, hbed, hwoken⟩ := waits_leaveRead hwaits
  have hdrains : 0 < l.drains := by
    rw [← countP_drain]
    exact List.countP_pos_iff.mpr ⟨x, hx, hbed⟩
  have hwriter : l.state.hasWriter := by
    have hclaims := h.claims
    split at hclaims
    · assumption
    · omega
  refine Nat.pos_of_ne_zero fun hlast => ?_
  have hlast : l.state.dropReader.readers = 0 := hlast
  have hclaimed : l.state.dropReader.hasWriter := hwriter
  obtain ⟨y, hy, hbed, hwoken⟩ := hwaits
  unfold Lock.leaveRead at hy
  dsimp only at hy
  rw [if_pos hclaimed, if_pos hlast] at hy
  have hone := h.drains_le_one
  rw [← countP_drain] at hone
  exact nomatch hwoken.symm.trans (woken_of_wakeFirst hone hy hbed)

/-! ## Whoever wishes something sleeps -/

def Abed (l : Lock τ) (wish : τ → Option Access) : Prop :=
  ∀ t, wish t ≠ none → ∃ bed, (t, bed) ∈ l.beds

section Abed

variable [DecidableEq τ] {wish : τ → Option Access}

theorem Abed.update_none (h : l.Abed wish) : l.Abed (Function.update wish t none) := by
  intro u hu
  rw [Function.update_apply] at hu
  split at hu
  · exact absurd rfl hu
  · exact h u hu

theorem Abed.sleep (h : l.Abed (Function.update wish t none)) (bed : Bed) (w : Option Access) :
    (l.sleep t bed).Abed (Function.update wish t w) := by
  intro u hu
  rw [beds_sleep]
  by_cases hut : u = t
  · exact ⟨bed, by simp [hut]⟩
  · rw [Function.update_of_ne hut] at hu
    obtain ⟨b, hb⟩ := h u (by rwa [Function.update_of_ne hut])
    exact ⟨b, List.mem_append_left _ hb⟩

/-- Who sleeps goes on sleeping when somebody else gets up. -/
theorem mem_beds_rise {x : Sleeper τ} (hx : l.sleepers.find? (·.thread = t) = some x) {u : τ}
    {bed : Bed} (hu : (u, bed) ∈ l.beds) (hut : u ≠ t) : (u, bed) ∈ (l.rise t).beds := by
  obtain ⟨before, after, hbeds, hrise⟩ := beds_rise hx
  rw [hbeds] at hu
  rw [hrise]
  rcases List.mem_append.mp hu with hu | hu
  · exact List.mem_append_left _ hu
  · refine List.mem_append_right _ ((List.mem_cons.mp hu).resolve_left ?_)
    rintro ⟨⟩
    exact hut rfl

theorem Abed.rise (h : l.Abed wish) {x : Sleeper τ}
    (hx : l.sleepers.find? (·.thread = t) = some x) :
    (l.rise t).Abed (Function.update wish t none) := by
  intro u hu
  by_cases hut : u = t
  · rw [hut, Function.update_self] at hu
    exact absurd rfl hu
  · rw [Function.update_of_ne hut] at hu
    obtain ⟨b, hb⟩ := h u hu
    exact ⟨b, mem_beds_rise hx hb hut⟩

theorem Entered.abed {access : Access} {r : Bool × Lock τ} (he : l.Entered t access r)
    (h : l.Abed (Function.update wish t none)) :
    r.2.Abed (Function.update wish t (pending r.1 access)) := by
  cases he with
  | reads | writes => exact h
  | full | shut => exact h.sleep _ _
  | waits => exact Abed.sleep (l := { l with state := l.state.claim }) h .drain _

theorem Resumed.abed {r : Bool × Lock τ} {x : Sleeper τ} (hr : l.Resumed t x.bed r)
    (hx : l.sleepers.find? (·.thread = t) = some x) (h : l.Abed wish) :
    r.2.Abed (Function.update wish t (pending r.1 x.bed.access)) := by
  have hrise := h.rise hx
  generalize x.bed = bed at hr
  cases hr with
  | asks entered => exact entered.abed hrise
  | writes => exact hrise
  | waits => exact hrise.sleep .drain _

end Abed

end Lock

namespace Guarded

variable {τ α : Type} [DecidableEq τ] {s s' : Guarded τ α} {t : τ}

/-! ## The lock's answer -/

@[simp] theorem lock_answer (wish : Wish) (r : Bool × Lock τ) : (s.answer t wish r).lock = r.2 := by
  obtain ⟨granted, lock⟩ := r
  cases granted with
  | false => rfl
  | true => cases wish <;> rfl

/-- What a new visitor has in common with the old one, he has in common with him everywhere. -/
theorem part_setVisitor {β : Type} (part : Visitor → β) {v : Visitor}
    (hv : part v = part (s.visitors t)) (u : τ) :
    part ((s.setVisitor t v).visitors u) = part (s.visitors u) := by
  rw [visitors_setVisitor]
  split
  · rename_i hut
    rw [hut, hv]
  · rfl

/-- Where a thread is after the lock's answer to its wish. -/
def answered (v : Visitor) : Wish → Bool → Visitor
  | wish, false => { v with wish := some wish }
  | .enter _, true => { v with wish := none }
  | .back _, true => { v with wish := none, inside := v.inside.tail }

theorem visitors_answer (wish : Wish) (r : Bool × Lock τ) (u : τ) :
    (s.answer t wish r).visitors u =
      if u = t then answered (s.visitors t) wish r.1 else s.visitors u := by
  obtain ⟨granted, lock⟩ := r
  cases granted with
  | false => cases wish <;> exact visitors_setVisitor _ u
  | true => cases wish <;> exact visitors_setVisitor _ u

theorem opening_answer (wish : Wish) (r : Bool × Lock τ) (u : τ) :
    ((s.answer t wish r).visitors u).opening = (s.visitors u).opening := by
  rw [visitors_answer]
  split
  · rename_i hut
    rw [hut]
    unfold answered
    split <;> rfl
  · rfl

omit [DecidableEq τ] in
theorem wishes_eq_of_visitors (h : ∀ u, (s'.visitors u).wish = (s.visitors u).wish) :
    s'.wishes = s.wishes := by
  funext u
  rw [wishes, wishes, h]

theorem mem_beds_of_find? {x : Sleeper τ}
    (hx : s.lock.sleepers.find? (·.thread = t) = some x) : (t, x.bed) ∈ s.lock.beds := by
  obtain ⟨before, after, hbeds, -⟩ := Lock.beds_rise hx
  simp [hbeds]

theorem Sound.access_eq (h : s.Sound) {wish : Wish} (hwish : (s.visitors t).wish = some wish)
    {x : Sleeper τ} (hx : s.lock.sleepers.find? (·.thread = t) = some x) :
    wish.access = x.bed.access := by
  have hslept := h.slept.wishes t x.bed (mem_beds_of_find? hx)
  rw [wishes, hwish] at hslept
  exact Option.some.inj hslept

/-! ## The invariant -/

/-- Whoever wishes something sleeps, and the writer at the drain has readers to wait for. -/
structure Alert (s : Guarded τ α) : Prop where
  abed : s.lock.Abed s.wishes
  drain : s.lock.Waits (· == .drain) → 0 < s.lock.state.readers

namespace Alert

omit [DecidableEq τ] in
theorem new (value : α) : (new value : Guarded τ α).Alert where
  abed _ h := absurd rfl h
  drain := fun ⟨_, hx, _⟩ => nomatch hx

omit [DecidableEq τ] in
/-- Nobody lies down or gets up. -/
theorem of_beds (h : s.Alert) (hbeds : s'.lock.beds = s.lock.beds)
    (hwish : ∀ u, (s'.visitors u).wish = (s.visitors u).wish)
    (hdrain : s'.lock.Waits (· == .drain) → 0 < s'.lock.state.readers) : s'.Alert where
  abed t ht := by
    rw [wishes_eq_of_visitors hwish] at ht
    rw [hbeds]
    exact h.abed t ht
  drain := hdrain

theorem answer {wish : Wish} {r : Bool × Lock τ}
    (habed : r.2.Abed (Function.update s.wishes t (Lock.pending r.1 wish.access)))
    (hdrain : r.2.Waits (· == .drain) → 0 < r.2.state.readers) : (s.answer t wish r).Alert where
  abed := by
    obtain ⟨granted, lock⟩ := r
    rw [Sound.wishes_answer, lock_answer]
    exact habed
  drain := by
    rw [lock_answer]
    exact hdrain

theorem step {m : Move τ α} (h : s.Alert) (hsound : s.Sound) (hs : s.step m = some s') :
    s'.Alert := by
  have hleave := hsound.balanced.drain_leaveRead
  cases made_of_step hs with
  | @asked _ t wish =>
    have hentered := Lock.entered s.lock t wish.access
    exact answer (hentered.abed h.abed.update_none) (hentered.drain h.drain)
  | resumed wished found =>
    have hresumed := Lock.resumed found
    refine answer ?_ (hresumed.drain h.drain)
    rw [hsound.access_eq wished found]
    exact hresumed.abed found h.abed
  | wrote => exact h.of_beds rfl (fun _ => rfl) h.drain
  | droppedRead => exact h.of_beds Lock.beds_leaveRead (fun _ => rfl) hleave
  | droppedWrite => exact h.of_beds Lock.beds_leaveWrite (part_setVisitor Visitor.wish rfl) h.drain
  | steppedOut => exact h.of_beds Lock.beds_leaveRead (part_setVisitor Visitor.wish rfl) hleave
  | opened wish =>
    exact h.of_beds Lock.beds_openGate (part_setVisitor Visitor.wish wish) fun hwaits =>
      h.drain (Lock.waits_openGate hwaits).1
  | turned _ wish => exact h.of_beds rfl (part_setVisitor Visitor.wish wish) h.drain

theorem play {ms : List (Move τ α)} (h : s.Alert) (hsound : s.Sound) (hs : s.play ms = some s') :
    s'.Alert := by
  have hstep : ∀ (r r' : Guarded τ α) m, r.Sound ∧ r.Alert → r.step m = some r' →
      r'.Sound ∧ r'.Alert :=
    fun _ _ _ hr hrm => ⟨hr.1.step hrm, hr.2.step hr.1 hrm⟩
  exact (Moves.play_induction hstep ⟨hsound, h⟩ hs).2

end Alert

/-! ### The gate -/

/-- Whoever sleeps in such a bed has a writer to wait for, or one who is about to open the gate. -/
def Watched (p : Bed → Bool) (s : Guarded τ α) : Prop :=
  s.lock.Waits p → s.lock.state.hasWriter ∨ ∃ t, (s.visitors t).opening

/-- Whoever sleeps at the gate has a writer to wait for, or one who is about to open it. -/
def GateWatched (s : Guarded τ α) : Prop :=
  s.lock.Waits Bed.isGate → s.lock.state.hasWriter ∨ ∃ t, (s.visitors t).opening

omit [DecidableEq τ] in
theorem Watched.new (p : Bed → Bool) (value : α) : (new value : Guarded τ α).Watched p :=
  fun ⟨_, hx, _⟩ => nomatch hx

/-- The count of readers is below its limit. -/
def HasRoom (s : Guarded τ α) : Prop := s.lock.state.readers < LockState.maxReaders

/-- Readers who find no room are not watched. -/
theorem Watched.step {p : Bed → Bool} (hp : ∀ bed, p bed → bed.isGate) {m : Move τ α}
    (h : s.Watched p) (hroom : p (.gate .read) → s.HasRoom) (hs : s.step m = some s') :
    s'.Watched p := by
  have hanswer : ∀ (u : τ) (wish : Wish) (r : Bool × Lock τ),
      (r.2.Waits p → r.2.state.hasWriter ∨ ∃ t, (s.visitors t).opening) →
      (s.answer u wish r).Watched p := by
    intro u wish r hr
    simpa only [Watched, lock_answer, opening_answer] using hr
  have hkeep : ∀ {r : Guarded τ α}, (r.lock.Waits p → s.lock.Waits p) →
      r.lock.state.hasWriter = s.lock.state.hasWriter →
      (∀ u, (r.visitors u).opening = (s.visitors u).opening) → r.Watched p := by
    intro r hwaits hwriter hopening hr
    simpa only [hwriter, hopening] using h (hwaits hr)
  cases made_of_step hs with
  | @asked _ t wish => exact hanswer t wish _ ((Lock.entered s.lock t wish.access).gate hroom h)
  | @resumed t wish _ _ found => exact hanswer t wish _ ((Lock.resumed found).gate hp hroom h)
  | wrote => exact h
  | droppedRead => exact hkeep Lock.waits_leaveRead rfl fun _ => rfl
  | @droppedWrite t =>
    refine fun _ => .inr ⟨t, ?_⟩
    rw [dropWrite, visitors_setVisitor, if_pos rfl]
  | steppedOut => exact hkeep Lock.waits_leaveRead rfl (part_setVisitor Visitor.opening rfl)
  | opened =>
    intro hwaits
    obtain ⟨-, bed, hbed, hnot⟩ := Lock.waits_openGate hwaits
    exact nomatch (hp bed hbed).symm.trans hnot
  | turned _ _ _ opening => exact hkeep id rfl (part_setVisitor Visitor.opening opening)

theorem GateWatched.step {m : Move τ α} (h : s.GateWatched) (hroom : s.HasRoom)
    (hs : s.step m = some s') : s'.GateWatched :=
  Watched.step (p := Bed.isGate) (fun _ hbed => hbed) h (fun _ => hroom) hs

/-! ### Room for readers -/

/-- A move lets in one reader at most. -/
theorem readers_step {m : Move τ α} (hs : s.step m = some s') :
    s'.lock.state.readers ≤ s.lock.state.readers + 1 := by
  cases made_of_step hs with
  | @asked _ t wish =>
    rw [lock_answer]
    exact (Lock.entered s.lock t wish.access).readers_le
  | resumed _ found =>
    rw [lock_answer]
    exact (Lock.resumed found).readers_le
  | wrote | droppedWrite | opened | turned => exact Nat.le_succ _
  | droppedRead | steppedOut => exact Nat.le_succ_of_le (Nat.sub_le _ 1)

theorem readers_play {ms : List (Move τ α)} (hs : s.play ms = some s') :
    s'.lock.state.readers ≤ s.lock.state.readers + ms.length := by
  induction ms generalizing s with
  | nil =>
    cases hs
    exact Nat.le_refl _
  | cons m ms ih =>
    obtain ⟨r, hr, hs⟩ := Moves.play_cons.mp hs
    have hstep := readers_step hr
    have hrest := ih hs
    rw [List.length_cons]
    omega

/-- A run that is not as long as the count is large has room for all its readers. -/
theorem hasRoom_of_length {value : α} {ms : List (Move τ α)}
    (hlength : ms.length < LockState.maxReaders) (k : Nat) (r : Guarded τ α)
    (hr : (new value).play (ms.take k) = some r) : r.HasRoom := by
  have hreaders := readers_play hr
  have htake := List.length_take_le' k ms
  have hnew : (new value : Guarded τ α).lock.state.readers = 0 := rfl
  show r.lock.state.readers < LockState.maxReaders
  omega

/-! ## Nobody is forgotten -/

/-- Whom the sleepers of a lock wait for. -/
structure Wakeful (s : Guarded τ α) : Prop where
  gate : ∀ x ∈ s.lock.sleepers, x.bed.isGate → x.woken = false →
    s.lock.state.hasWriter ∨ ∃ t, (s.visitors t).opening
  drain : ∀ x ∈ s.lock.sleepers, x.bed = .drain → x.woken = false → 0 < s.lock.state.readers
  /-- The drain has room for one. -/
  alone : s.lock.sleepers.countP (·.bed == .drain) ≤ 1
  /-- Without a guard that is held, a gate to open or a thread to get up, nobody is blocked. -/
  idle : (∀ (g : Nat) (x : Guard τ α), s.guards[g]? = some x → x.hold ≠ .held) →
    (∀ t, (s.visitors t).opening = false) → (∀ x ∈ s.lock.sleepers, x.woken = false) →
    ∀ t, (s.visitors t).wish = none

theorem Sound.count_eq_zero (access : Access)
    (hfree : ∀ (g : Nat) (x : Guard τ α), s.guards[g]? = some x → x.hold ≠ .held) :
    s.count access = 0 := by
  refine Array.countP_eq_zero.mpr fun x hx hheld => ?_
  obtain ⟨g, hg⟩ := Array.getElem?_of_mem hx
  exact hfree g x hg (isHeld_iff.mp hheld).2

theorem Sound.wakeful (h : s.Sound) (halert : s.Alert) (hgate : s.GateWatched) : s.Wakeful where
  gate x hx hbed hwoken := hgate ⟨x, hx, hbed, hwoken⟩
  drain x hx hbed hwoken := halert.drain ⟨x, hx, by simp [hbed], hwoken⟩
  alone := by
    rw [Lock.countP_drain]
    exact h.balanced.drains_le_one
  idle hfree hopening hwoken t := by
    have hreaders : s.lock.state.readers = 0 :=
      h.balanced.readers.trans (Sound.count_eq_zero .read hfree)
    have hdrain : ∀ x ∈ s.lock.sleepers, x.bed ≠ .drain := by
      intro x hx hbed
      have hpos := halert.drain ⟨x, hx, by simp [hbed], hwoken x hx⟩
      omega
    have hnone : s.lock.drains = 0 := by
      rw [← Lock.countP_drain]
      exact List.countP_eq_zero.mpr fun x hx => by simpa using hdrain x hx
    have hwriter : s.lock.state.hasWriter = false := by
      have hclaims := h.balanced.claims
      rw [Sound.count_eq_zero .write hfree, hnone] at hclaims
      by_contra hw
      rw [if_pos (Bool.of_not_eq_false hw)] at hclaims
      omega
    by_contra hwish
    obtain ⟨bed, hbed⟩ := halert.abed t (by simpa [wishes] using hwish)
    obtain ⟨x, hx, hxbed⟩ := List.mem_map.mp hbed
    cases hxbed
    cases hkind : x.bed with
    | drain => exact hdrain x hx hkind
    | gate access =>
      rcases hgate ⟨x, hx, by rw [hkind]; rfl, hwoken x hx⟩ with hw | ⟨u, hu⟩
      · rw [hwriter] at hw
        cases hw
      · rw [hopening u] at hu
        cases hu

/-- Whatever the threads did, as long as there was room for the readers: nobody sleeps for
nothing. -/
theorem lock_loses_no_wakeup {value : α} {ms : List (Move τ α)}
    (room : ∀ k (r : Guarded τ α), (new value).play (ms.take k) = some r → r.HasRoom)
    (h : (new value : Guarded τ α).play ms = some s) : s.Wakeful := by
  have hgate : s.GateWatched := Moves.play_along (fun k _ _ _ _ hplay hstep hwatched =>
    hwatched.step (room k _ hplay) hstep) (Watched.new Bed.isGate value) h
  have hsound : (new value : Guarded τ α).Sound := .new value
  exact (hsound.play h).wakeful ((Alert.new value).play hsound h) hgate

/-- A writer waits for a reader, and others come to the gate. The reader leaves, the writer comes
in and gives up the claim, and is about to open the gate. -/
def crowd : List (Move Nat Nat) :=
  [.enter 0 .read, .enter 1 .write, .enter 2 .read, .enter 3 .write, .resume 2, .drop 0 0,
    .resume 1, .drop 1 1]

theorem crowd_wakeful :
    (∀ k (r : Guarded Nat Nat), (new 4).play (crowd.take k) = some r → r.HasRoom) ∧
    ∃ s : Guarded Nat Nat, (new 4).play crowd = some s ∧ s.Wakeful ∧
      s.lock.beds = [(3, .gate .write), (2, .gate .read)] ∧ s.lock.nextWoken.isNone ∧
      s.lock.state = {} ∧ (s.visitors 1).opening := by
  have hroom : ∀ k (r : Guarded Nat Nat), (new 4).play (crowd.take k) = some r → r.HasRoom :=
    hasRoom_of_length (by decide)
  have hrun : ((new 4 : Guarded Nat Nat).play crowd).map (fun s => (s.lock.beds,
      s.lock.nextWoken.isNone, s.lock.state, (s.visitors 1).opening)) =
      some ([(3, .gate .write), (2, .gate .read)], true, {}, true) := by decide +kernel
  obtain ⟨s, hs, hend⟩ := Option.map_eq_some_iff.mp hrun
  obtain ⟨hbeds, hend⟩ := Prod.mk.inj hend
  obtain ⟨hwoken, hend⟩ := Prod.mk.inj hend
  obtain ⟨hstate, hopening⟩ := Prod.mk.inj hend
  exact ⟨hroom, s, hs, lock_loses_no_wakeup hroom hs, hbeds, hwoken, hstate, hopening⟩

end Guarded

end ActorSystem
