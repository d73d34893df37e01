import ActorSystem.Proofs.Lock.Guards

/-!
# What a reader/writer lock protects

A writer is alone, the value stands still for readers, no update is lost, and a reader who stepped
out has access again when the call is over, by itself or by a panic.

* `Sound.update`: the one way in which a move changes the value.
* `lock_protects`: what holds after every run, and what the value is.
-/

namespace ActorSystem.Guarded

variable {τ α : Type} [DecidableEq τ] {s s' : Guarded τ α} {t : τ} {g : Nat} {x : Guard τ α}

/-! ## What a move does -/

@[simp] theorem value_answer (wish : Wish) (r : Bool × Lock τ) :
    (s.answer t wish r).value = s.value := by
  obtain ⟨granted, lock⟩ := r
  cases granted with
  | false => rfl
  | true => cases wish <;> rfl

/-- Only a write changes the value, and it does so with a writer inside. -/
theorem value_step {m : Move τ α} (hs : s.step m = some s') :
    (s'.value = s.value ∧ m.update? = none) ∨ ∃ t g f x, m = .write t g f ∧
      s.guards[g]? = some x ∧ x.access = .write ∧ x.hold = .held ∧ s'.value = f x.view := by
  cases made_of_step hs with
  | asked update => exact .inl ⟨value_answer _ _, update⟩
  | resumed => exact .inl ⟨value_answer _ _, rfl⟩
  | wrote held =>
    obtain ⟨hx, hwrite, hheld⟩ := held?_eq_some held
    exact .inr ⟨_, _, _, _, rfl, hx, hwrite, hheld, rfl⟩
  | droppedRead | droppedWrite | steppedOut | opened => exact .inl ⟨rfl, rfl⟩
  | turned update => exact .inl ⟨rfl, update⟩

/-- Every write applies to the value that the one before it left. -/
theorem Sound.update {m : Move τ α} (h : s.Sound) (hs : s.step m = some s') :
    s'.value = m.update?.getD id s.value := by
  rcases value_step hs with ⟨hvalue, hm⟩ | ⟨t, g, f, x, rfl, hx, -, hheld, hvalue⟩
  · rw [hvalue, hm]
    rfl
  · rw [hvalue, h.view g x hx hheld]
    rfl

theorem Sound.value_play {ms : List (Move τ α)} (h : s.Sound) (hs : s.play ms = some s') :
    s'.value = (ms.filterMap Move.update?).foldl (fun v f => f v) s.value := by
  induction ms generalizing s with
  | nil =>
    cases hs
    rfl
  | cons m ms ih =>
    obtain ⟨r, hr, hs⟩ := Moves.play_cons.mp hs
    rw [ih (h.step hr) hs, h.update hr, List.filterMap_cons]
    cases m.update? <;> rfl

/-- The value stands still as long as a reader is inside. -/
theorem Sound.steady {m : Move τ α} (h : s.Sound) (hs : s.step m = some s')
    (hx : s.guards[g]? = some x) (hread : x.access = .read) (hheld : x.hold = .held) :
    s'.value = s.value := by
  rcases value_step hs with ⟨hvalue, -⟩ | ⟨t, k, f, y, rfl, hy, hwrite, hyheld, -⟩
  · exact hvalue
  · have hgk := h.alone hy hwrite hyheld hx hheld
    subst hgk
    rw [hx] at hy
    cases hy
    exact nomatch hread.symm.trans hwrite

theorem readers_leaveRead (h : s.Sound) (hx : s.guards[g]? = some x) (hread : x.access = .read)
    (hheld : x.hold = .held) : s.lock.leaveRead.state.readers + 1 = s.lock.state.readers := by
  have hpos : 0 < s.count .read :=
    Array.countP_pos_iff.mpr ⟨x, Array.mem_of_getElem? hx, isHeld_iff.mpr ⟨hread, hheld⟩⟩
  have hreaders := h.balanced.readers
  show s.lock.state.readers - 1 + 1 = s.lock.state.readers
  omega

/-- An answer takes no guard away; to a thread that comes back it gives the guard it had. -/
theorem guards_answer (hx : s.guards[g]? = some x) (wish : Wish) (r : Bool × Lock τ) :
    ∃ y, (s.answer t wish r).guards[g]? = some y ∧ y.access = x.access ∧
      (y.hold = x.hold ∨ y.hold = .held) := by
  obtain ⟨granted, lock⟩ := r
  cases granted with
  | false => exact ⟨x, hx, rfl, .inl rfl⟩
  | true =>
    cases wish with
    | enter access =>
      have hlt := (Array.getElem?_eq_some_iff.mp hx).1
      refine ⟨x, ?_, rfl, .inl rfl⟩
      show (s.guards.push _)[g]? = some x
      rw [Array.getElem?_push, if_neg (Nat.ne_of_lt hlt), hx]
    | back k =>
      show ∃ y, (s.guards.modify k _)[g]? = some y ∧ _
      rw [Array.getElem?_modify, hx]
      split
      · exact ⟨_, rfl, rfl, .inr rfl⟩
      · exact ⟨x, rfl, rfl, .inl rfl⟩

theorem guards_modify (hx : s.guards[g]? = some x) {t : τ} (hout : x.hold = .out t) {k : Nat}
    {access : Access} {y : Guard τ α} (hy : s.held? k access = some y)
    (f : Guard τ α → Guard τ α) : (s.guards.modify k f)[g]? = some x := by
  obtain ⟨hy, -, hheld⟩ := held?_eq_some hy
  rw [Array.getElem?_modify, if_neg, hx]
  rintro rfl
  rw [hx] at hy
  cases hy
  exact nomatch hheld.symm.trans hout

/-- Whoever has stepped out with a guard stays out, or has access again. -/
theorem guards_step {m : Move τ α} (hs : s.step m = some s') (hx : s.guards[g]? = some x)
    (hout : x.hold = .out t) : ∃ y, s'.guards[g]? = some y ∧ y.access = x.access ∧
      (y.hold = .out t ∨ y.hold = .held) := by
  have hanswer : ∀ (u : τ) wish r, ∃ y, (s.answer u wish r).guards[g]? = some y ∧
      y.access = x.access ∧ (y.hold = .out t ∨ y.hold = .held) := by
    intro u wish r
    rw [← hout]
    exact guards_answer hx wish r
  cases made_of_step hs with
  | asked | resumed => exact hanswer _ _ _
  | wrote held | droppedRead held | droppedWrite held | steppedOut _ held =>
    exact ⟨x, guards_modify hx hout held _, rfl, .inl hout⟩
  | opened | turned => exact ⟨x, hx, rfl, .inl hout⟩

/-- A call that is over, whether by itself or by a panic, leaves its guard as it was before. -/
theorem Sound.held_of_returned {m : Move τ α} (h : s.Sound) (hs : s.step m = some s')
    (hin : g ∈ (s.visitors t).inside) (hout : g ∉ (s'.visitors t).inside) :
    ∃ x : Guard τ α, s'.guards[g]? = some x ∧ x.access = .read ∧ x.hold = .held ∧
      x.view = s'.value := by
  have h' := h.step hs
  obtain ⟨x, hx, hxout⟩ := (h.outside g t).mpr hin
  obtain ⟨y, hy, haccess, hyout | hheld⟩ := guards_step hs hx hxout
  · exact absurd ((h'.outside g t).mp ⟨y, hy, hyout⟩) hout
  · exact ⟨y, hy, haccess.trans (h.reads g t x hx hxout), hheld, h'.view g y hy hheld⟩

/-! ## What is protected -/

/-- What holds between two moves. A guard is live until it is dropped; a live one is held unless
its reader has stepped out with it. -/
structure Protected (s : Guarded τ α) : Prop where
  /-- A writer who holds a guard is alone, and the lock says so. -/
  alone : ∀ (g : Nat) (x : Guard τ α), s.guards[g]? = some x → x.access = .write →
    x.hold = .held → s.lock.state.hasWriter ∧ s.lock.state.readers = 0 ∧
      ∀ (k : Nat) (y : Guard τ α), s.guards[k]? = some y → y.hold = .held → k = g
  /-- The lock counts the readers that have not stepped out. -/
  counted : s.lock.state.readers =
    s.guards.countP fun x => x.access = .read && x.hold = .held
  /-- A reader steps out for the time of a call, and nobody else does. -/
  outside : ∀ (g : Nat) (t : τ), (∃ x : Guard τ α, s.guards[g]? = some x ∧ x.access = .read ∧
    x.hold = .out t) ↔ g ∈ (s.visitors t).inside
  writers : ∀ (g : Nat) (x : Guard τ α), s.guards[g]? = some x → x.access = .write →
    x.hold = .held ∨ x.hold = .gone
  /-- Each release of a reader takes one from the count. -/
  releases : ∀ t g s', (s.held? g .read).isSome →
    (s.step (.drop t g) = some s' ∨ s.step (.stepOut t g) = some s') →
    s'.lock.state.readers + 1 = s.lock.state.readers
  /-- When a call is over, whether it returns or unwinds, its guard is held again. -/
  returns : ∀ m s' t g, s.step m = some s' → g ∈ (s.visitors t).inside →
    g ∉ (s'.visitors t).inside → ∃ x : Guard τ α, s'.guards[g]? = some x ∧ x.access = .read ∧
      x.hold = .held ∧ x.view = s'.value
  /-- Whoever holds a guard knows the value. -/
  current : ∀ (g : Nat) (x : Guard τ α), s.guards[g]? = some x → x.hold = .held →
    x.view = s.value
  /-- The value stands still as long as a reader is inside. -/
  steady : ∀ m s' (g : Nat) (x : Guard τ α), s.step m = some s' → s.guards[g]? = some x →
    x.access = .read → x.hold = .held → s'.value = s.value

theorem Sound.protects (h : s.Sound) : s.Protected where
  alone g x hx hwrite hheld := by
    have hpos : 0 < s.count .write :=
      Array.countP_pos_iff.mpr ⟨x, Array.mem_of_getElem? hx, isHeld_iff.mpr ⟨hwrite, hheld⟩⟩
    exact ⟨h.balanced.hasWriter hpos, h.balanced.readers.trans (h.balanced.alone hpos),
      fun k y hy hk => h.alone hx hwrite hheld hy hk⟩
  counted := h.balanced.readers
  outside g t := by
    rw [← h.outside]
    exact ⟨fun ⟨x, hx, _, hout⟩ => ⟨x, hx, hout⟩,
      fun ⟨x, hx, hout⟩ => ⟨x, hx, h.reads g t x hx hout, hout⟩⟩
  writers g x hx hwrite := by
    cases hhold : x.hold with
    | held => exact .inl rfl
    | gone => exact .inr rfl
    | out t => exact nomatch hwrite.symm.trans (h.reads g t x hx hhold)
  releases t g s' hread hs := by
    obtain ⟨x, hx⟩ := Option.isSome_iff_exists.mp hread
    obtain ⟨hget, haccess, hheld⟩ := held?_eq_some hx
    have hlock : s'.lock = s.lock.leaveRead := by
      rcases hs with hs | hs <;> simp only [Guarded.step] at hs <;> split at hs
      · rw [hx] at hs
        cases hs
        rfl
      · cases hs
      · rw [hx] at hs
        cases hs
        rfl
      · cases hs
    rw [hlock]
    exact readers_leaveRead h hget haccess hheld
  returns m s' t g hs hin hout := h.held_of_returned hs hin hout
  current := h.view
  steady m s' g x hs hx hread hheld := h.steady hs hx hread hheld

/-- Whatever the threads did: the lock protects the value, which is what the writes made of it,
one after another. -/
theorem lock_protects {value : α} {ms : List (Move τ α)}
    (h : (new value : Guarded τ α).play ms = some s) : s.Protected ∧
      s.value = (ms.filterMap Move.update?).foldl (fun v f => f v) value :=
  ⟨((Sound.new value).play h).protects, (Sound.new value).value_play h⟩

/-- A reader steps out and writes meanwhile. A second writer claims the lock while another reader
is inside, so that the first thread, which panics, has to wait on its way back. -/
def detour : List (Move Nat Nat) :=
  [.enter 0 .read, .stepOut 0 0, .enter 0 .write, .write 0 1 (· + 1), .drop 0 1, .openGate 0,
    .enter 1 .read, .panic 0, .enter 2 .write, .stepBack 0, .drop 1 2, .resume 2,
    .write 2 3 (· * 10), .drop 2 3, .openGate 2, .resume 0, .recover 0]

theorem detour_protects : ∃ s : Guarded Nat Nat, (new 4).play detour = some s ∧ s.Protected ∧
    s.value = 50 ∧ s.lock.state.readers = 1 ∧
    s.value = (detour.filterMap Move.update?).foldl (fun v f => f v) 4 := by
  have hrun : ((new 4 : Guarded Nat Nat).play detour).map
      (fun s => (s.value, s.lock.state.readers)) = some (50, 1) := by decide +kernel
  obtain ⟨s, hs, hend⟩ := Option.map_eq_some_iff.mp hrun
  obtain ⟨hvalue, hreaders⟩ := Prod.mk.inj hend
  obtain ⟨hprotects, hwrites⟩ := lock_protects hs
  exact ⟨s, hs, hprotects, hvalue, hreaders, hwrites⟩

end ActorSystem.Guarded
