import ActorSystem.Proofs.Lock.Wakeup

/-!
# Writers are not starved

From the moment a writer has claimed a reader/writer lock until it drops its guard, nobody else
gets in: neither readers and writers who come later, nor those who were asleep at the gate, nor
readers who come back from a call for which they had stepped out. The readers who are inside can
only leave, and when the last of them has left, the writer's turn has come. How long that takes
and who else turns up meanwhile does not matter.

* `Claims`: the writer who is waiting at the drain, or is inside.
* `Claims.step`: a move leaves the claim standing and lets in no reader.
* `writer_not_starved`: what holds after every run that does not drop the writer's guard.
-/

namespace ActorSystem

/-- Under a claim the gate is shut to everybody. -/
theorem Lock.Entered.of_hasWriter {τ : Type} {l : Lock τ} {t : τ} {access : Access}
    {r : Bool × Lock τ} (he : l.Entered t access r) (hwriter : l.state.hasWriter) :
    r = (false, l.sleep t (.gate access)) := by
  cases he with
  | reads lets => simp [LockState.letsReadersIn, hwriter] at lets
  | full free | writes free | waits free => simp [hwriter] at free
  | shut => rfl

namespace Guarded

variable {τ α : Type} [DecidableEq τ] {s s' : Guarded τ α} {t u : τ} {g k : Nat}

/-! ## Guards that are held -/

/-- Guard `g` is held, and has this kind of access. -/
def Holds (s : Guarded τ α) (g : Nat) (access : Access) : Prop :=
  ∃ x : Guard τ α, s.guards[g]? = some x ∧ x.access = access ∧ x.hold = .held

theorem holds_of_held? {x : Guard τ α} {access : Access} (hx : s.held? g access = some x) :
    s.Holds g access :=
  ⟨x, held?_eq_some hx⟩

theorem count_pos_iff {access : Access} : 0 < s.count access ↔ ∃ g, s.Holds g access := by
  refine Array.countP_pos_iff.trans ⟨?_, ?_⟩
  · rintro ⟨x, hx, hheld⟩
    obtain ⟨g, hg⟩ := Array.getElem?_of_mem hx
    exact ⟨g, x, hg, isHeld_iff.mp hheld⟩
  · rintro ⟨g, x, hg, hheld⟩
    exact ⟨x, Array.mem_of_getElem? hg, isHeld_iff.mpr hheld⟩

omit [DecidableEq τ] in
/-- What a guard knows does not matter to whether it is held. -/
theorem holds_write {x : Guard τ α} {f : α → α} {access : Access} :
    (s.write g x f).Holds k access ↔ s.Holds k access := by
  unfold Holds
  rw [Guarded.write]
  simp only [Array.getElem?_modify]
  split
  · simp only [Option.map_eq_some_iff, exists_exists_and_eq_and]
  · rfl

omit [DecidableEq τ] in
theorem holds_setHold {hold : Hold τ} (hout : hold ≠ .held) {access : Access} :
    (s.setHold g hold).Holds k access ↔ g ≠ k ∧ s.Holds k access := by
  unfold Holds
  simp only [getElem?_setHold]
  split
  · rename_i hgk
    simp [hgk, hout]
  · rename_i hgk
    simp [hgk]

/-- Who is let in holds a new guard. -/
theorem holds_entered (access : Access) (lock : Lock τ) :
    (s.answer t (.enter access) (true, lock)).Holds s.guards.size access := by
  refine ⟨{ access, view := s.value }, ?_, rfl, rfl⟩
  show (s.guards.push _)[_]? = _
  rw [Array.getElem?_push_size]

namespace Sound

theorem hasWriter_iff (h : s.Sound) :
    s.lock.state.hasWriter ↔ (∃ t, (t, .drain) ∈ s.lock.beds) ∨ ∃ g, s.Holds g .write := by
  have hdrains : 0 < s.lock.drains ↔ ∃ t, (t, .drain) ∈ s.lock.beds := by
    refine List.countP_pos_iff.trans ⟨?_, ?_⟩
    · rintro ⟨⟨t, bed⟩, ht, hbed⟩
      cases of_decide_eq_true hbed
      exact ⟨t, ht⟩
    · rintro ⟨t, ht⟩
      exact ⟨_, ht, by simp⟩
  rw [← hdrains, ← count_pos_iff]
  have hclaims := h.balanced.claims
  split at hclaims
  · rename_i hwriter
    exact iff_of_true hwriter (by omega)
  · rename_i hwriter
    exact iff_of_false hwriter (by omega)

/-- A writer at the drain is not inside, and nobody else is as a writer. -/
theorem not_writes_of_drain (h : s.Sound) (ht : (t, .drain) ∈ s.lock.beds) :
    ¬ s.Holds g .write := by
  intro hwrite
  have hcount := count_pos_iff.mpr ⟨g, hwrite⟩
  have hdrains : 0 < s.lock.drains := List.countP_pos_iff.mpr ⟨_, ht, by simp⟩
  have hclaims := h.balanced.claims
  split at hclaims <;> omega

theorem drain_unique (h : s.Sound) (ht : (t, .drain) ∈ s.lock.beds)
    (hu : (u, .drain) ∈ s.lock.beds) : u = t := by
  have hone := h.balanced.drains_le_one
  rw [Lock.drains, List.countP_eq_length_filter] at hone
  have ht : (t, .drain) ∈ s.lock.beds.filter (·.2 = .drain) := by simp [ht]
  have hu : (u, .drain) ∈ s.lock.beds.filter (·.2 = .drain) := by simp [hu]
  generalize s.lock.beds.filter (·.2 = .drain) = drains at hone ht hu
  obtain _ | ⟨x, _ | ⟨y, rest⟩⟩ := drains
  · cases ht
  · cases List.mem_singleton.mp ht
    cases List.mem_singleton.mp hu
    rfl
  · simp only [List.length_cons] at hone
    omega

theorem writes_unique (h : s.Sound) (hg : s.Holds g .write) (hk : s.Holds k .write) : k = g := by
  obtain ⟨x, hx, hwrite, hheld⟩ := hg
  obtain ⟨y, hy, -, hyheld⟩ := hk
  exact h.alone hx hwrite hheld hy hyheld

theorem bed_unique (h : s.Sound) {bed bed' : Bed} (hb : (t, bed) ∈ s.lock.beds)
    (hb' : (t, bed') ∈ s.lock.beds) : bed = bed' := by
  have heq := List.inj_on_of_nodup_map h.slept.once hb hb' rfl
  exact congrArg Prod.snd heq

end Sound

/-! ## Claims -/

/-- Writer `t` has claimed the lock and waits for readers to leave, and guard `g` will be his; or
he has it already. -/
def Claims (s : Guarded τ α) (t : τ) (g : Nat) : Prop :=
  ((t, .drain) ∈ s.lock.beds ∧ s.guards.size = g) ∨ s.Holds g .write

/-- What comes of a state when nobody is let in but the writer with the claim. -/
structure Stands (s s' : Guarded τ α) (t : τ) (g : Nat) : Prop where
  claims : s'.Claims t g
  /-- Every reader who is inside was inside before. -/
  reads : ∀ k, s'.Holds k .read → s.Holds k .read
  readers : s'.lock.state.readers ≤ s.lock.state.readers

namespace Claims

theorem hasWriter (h : s.Claims t g) (hs : s.Sound) : s.lock.state.hasWriter :=
  hs.hasWriter_iff.mpr (h.imp (fun ht => ⟨t, ht.1⟩) fun hg => ⟨g, hg⟩)

/-- A thread asks and has to sleep. -/
theorem refused (h : s.Claims t g) {lock : Lock τ} (hstate : lock.state = s.lock.state)
    (hbeds : (t, .drain) ∈ s.lock.beds → (t, .drain) ∈ lock.beds) (wish : Wish) :
    s.Stands (s.answer u wish (false, lock)) t g where
  claims := h.imp (fun ⟨ht, hsize⟩ => ⟨hbeds ht, hsize⟩) id
  reads _ hk := hk
  readers := Nat.le_of_eq (congrArg LockState.readers hstate)

/-- A thread asks anew. -/
theorem asked (h : s.Claims t g) (hs : s.Sound) (wish : Wish) :
    s.Stands (s.answer u wish (s.lock.enter u wish.access)) t g := by
  rw [(Lock.entered s.lock u wish.access).of_hasWriter (h.hasWriter hs)]
  refine h.refused ?_ (fun ht => ?_) wish
  · rfl
  · rw [Lock.beds_sleep]
    exact List.mem_append_left _ ht

/-- The writer who has waited at the drain is let in. -/
theorem admitted (hsize : s.guards.size = g) {lock : Lock τ}
    (hstate : lock.state = s.lock.state) :
    s.Stands (s.answer t (.enter .write) (true, lock)) t g where
  claims := by
    rw [← hsize]
    exact .inr (holds_entered .write lock)
  reads k := by
    rintro ⟨x, hx, hread, hheld⟩
    have hx : (s.guards.push _)[k]? = some x := hx
    rw [Array.getElem?_push] at hx
    split at hx
    · cases hx
      cases hread
    · exact ⟨x, hx, hread, hheld⟩
  readers := Nat.le_of_eq (congrArg LockState.readers hstate)

/-- A thread that sleeps asks again. At the gate it has to go on sleeping, and at the drain there
is only the writer with the claim. -/
theorem resumed (h : s.Claims t g) (hs : s.Sound) {wish : Wish}
    (hwish : (s.visitors u).wish = some wish) {x : Sleeper τ}
    (hx : s.lock.sleepers.find? (·.thread = u) = some x) :
    s.Stands (s.answer u wish (s.lock.resume x)) t g := by
  have hresumed := Lock.resumed hx
  have hbed := mem_beds_of_find? hx
  have haccess := hs.access_eq hwish hx
  generalize s.lock.resume x = r at hresumed
  generalize x.bed = bed at hresumed hbed haccess
  have hdrain : bed = .drain → u = t ∧ s.guards.size = g := by
    rintro rfl
    rcases h with ⟨ht, hsize⟩ | hwrite
    · exact ⟨hs.drain_unique ht hbed, hsize⟩
    · exact absurd hwrite (hs.not_writes_of_drain hbed)
  cases hresumed with
  | asks entered =>
    rw [entered.of_hasWriter (h.hasWriter hs)]
    refine h.refused ?_ (fun ht => ?_) wish
    · rfl
    · have hut : t ≠ u := by
        rintro rfl
        exact nomatch hs.bed_unique ht hbed
      rw [Lock.beds_sleep]
      exact List.mem_append_left _ (Lock.mem_beds_rise hx ht hut)
  | writes =>
    obtain ⟨rfl, hsize⟩ := hdrain rfl
    cases wish with
    | enter access =>
      cases haccess
      refine admitted hsize ?_
      rfl
    | back => cases haccess
  | waits =>
    obtain ⟨rfl, -⟩ := hdrain rfl
    refine h.refused ?_ (fun _ => ?_) wish
    · rfl
    · rw [Lock.beds_sleep]
      exact List.mem_append_right _ List.mem_cons_self

omit [DecidableEq τ] in
/-- A reader lets go of his guard. -/
theorem left (h : s.Claims t g) (hread : s.Holds k .read) {hold : Hold τ} (hout : hold ≠ .held) :
    s.Stands ({ s with lock := s.lock.leaveRead }.setHold k hold) t g where
  claims := by
    rcases h with ⟨ht, hsize⟩ | hwrite
    · rw [← Lock.beds_leaveRead] at ht
      exact .inl ⟨ht, Array.size_modify.trans hsize⟩
    · refine .inr ((holds_setHold hout).mpr ⟨?_, hwrite⟩)
      rintro rfl
      obtain ⟨x, hx, hxread, -⟩ := hread
      obtain ⟨y, hy, hywrite, -⟩ := hwrite
      rw [hx] at hy
      cases hy
      exact nomatch hxread.symm.trans hywrite
  reads _ hj := ((holds_setHold hout).mp hj).2
  readers := Nat.sub_le _ 1

/-- As long as the writer does not drop his guard, the claim stands. -/
theorem step (h : s.Claims t g) (hs : s.Sound) {m : Move τ α} (hm : s.step m = some s')
    (hkept : ∀ u, m ≠ .drop u g) : s.Stands s' t g := by
  cases made_of_step hm with
  | @asked _ _ wish => exact h.asked hs wish
  | resumed wished found => exact h.resumed hs wished found
  | wrote =>
    refine ⟨h.imp (fun ⟨ht, hsize⟩ => ⟨ht, Array.size_modify.trans hsize⟩) holds_write.mpr,
      fun _ => holds_write.mp, Nat.le_refl _⟩
  | droppedRead held => exact h.left (holds_of_held? held) nofun
  | @droppedWrite u k _ held =>
    have hk := holds_of_held? held
    rcases h with ⟨ht, -⟩ | hg
    · exact absurd hk (hs.not_writes_of_drain ht)
    · rw [hs.writes_unique hg hk] at hkept
      exact absurd rfl (hkept u)
  | @steppedOut u k _ _ held =>
    obtain ⟨hclaims, hreads, hreaders⟩ := h.left (holds_of_held? held)
      (nofun : Hold.out u ≠ .held)
    exact ⟨hclaims, hreads, hreaders⟩
  | opened =>
    rw [Claims, ← Lock.beds_openGate] at h
    exact ⟨h, fun _ => id, Nat.le_refl _⟩
  | turned => exact ⟨h, fun _ => id, Nat.le_refl _⟩

theorem play (h : s.Claims t g) (hs : s.Sound) {ns : List (Move τ α)} (hns : s.play ns = some s')
    (hkept : ∀ u, .drop u g ∉ ns) : s.Stands s' t g := by
  induction ns generalizing s with
  | nil =>
    cases hns
    exact ⟨h, fun _ => id, Nat.le_refl _⟩
  | cons m ns ih =>
    obtain ⟨r, hr, hns⟩ := Moves.play_cons.mp hns
    have hstep := h.step hs hr fun u hm => hkept u (by simp [hm])
    have hrest := ih hstep.claims (hs.step hr) hns fun u hu => hkept u (List.mem_cons_of_mem m hu)
    exact ⟨hrest.claims, fun k hk => hstep.reads k (hrest.reads k hk),
      Nat.le_trans hrest.readers hstep.readers⟩

end Claims

/-! ## The moves of a thread that asks -/

theorem eq_of_enter {access : Access} (hs : s.step (.enter t access) = some s') :
    s' = s.answer t (.enter access) (s.lock.enter t access) := by
  simp only [Guarded.step] at hs
  split at hs
  · exact (Option.some.inj hs).symm
  · cases hs

theorem eq_of_stepBack (hs : s.step (.stepBack t) = some s') :
    ∃ g, s' = s.answer t (.back g) (s.lock.enter t .read) := by
  simp only [Guarded.step] at hs
  split at hs
  · obtain ⟨g, -, hg⟩ := Option.map_eq_some_iff.mp hs
    exact ⟨g, hg.symm⟩
  · cases hs

theorem eq_of_resume (hs : s.step (.resume t) = some s') : ∃ wish x,
    s.lock.sleepers.find? (·.thread = t) = some x ∧ s' = s.answer t wish (s.lock.resume x) := by
  simp only [Guarded.step] at hs
  split at hs
  · rename_i wish x _ hx
    exact ⟨wish, x, hx, (Option.some.inj hs).symm⟩
  · cases hs

theorem answer_of_refused (wish : Wish) {r : Bool × Lock τ} (hr : r.1 = false) :
    ((s.answer t wish r).visitors t).wish = some wish ∧ (s.answer t wish r).guards = s.guards := by
  obtain ⟨granted, lock⟩ := r
  cases hr
  refine ⟨?_, rfl⟩
  rw [visitors_answer, if_pos rfl]
  cases wish <;> rfl

/-! ## What a claim is worth -/

/-- How things stand in `s'`, some time after writer `t` claimed the lock and `s` was the state. -/
structure Unrivalled (s s' : Guarded τ α) (t : τ) (g : Nat) : Prop where
  /-- The claim stands, and is the only one. -/
  claims : s'.Claims t g
  hasWriter : s'.lock.state.hasWriter
  sole : (∀ u, (u, .drain) ∈ s'.lock.beds → u = t) ∧ ∀ k, s'.Holds k .write → k = g
  /-- Whoever asks has to sleep. -/
  enters : ∀ u access r, s'.step (.enter u access) = some r →
    (r.visitors u).wish = some (.enter access) ∧ r.guards = s'.guards
  returns : ∀ u r, s'.step (.stepBack u) = some r →
    (∃ k, (r.visitors u).wish = some (.back k)) ∧ r.guards = s'.guards
  /-- Whoever sleeps at the gate and asks again has to go on sleeping. -/
  sleepers : ∀ u r, s'.step (.resume u) = some r → (u, .drain) ∉ s'.lock.beds →
    (∃ wish, (r.visitors u).wish = some wish) ∧ r.guards = s'.guards
  readers : s'.lock.state.readers ≤ s.lock.state.readers
  /-- The readers inside are some of those who were inside then. -/
  reads : ∀ k, s'.Holds k .read → s.Holds k .read
  /-- No reader is inside when all of those have left, and not before. -/
  drained : s'.lock.state.readers = 0 ↔ ∀ k, s.Holds k .read → ¬ s'.Holds k .read
  /-- The writer does not come in before that. -/
  waits : s'.Holds g .write → s'.lock.state.readers = 0
  /-- From then on he is inside, or has been woken and comes in as soon as he gets up. -/
  admitted : s'.lock.state.readers = 0 → s'.Holds g .write ∨
    (∃ x ∈ s'.lock.sleepers, x.thread = t ∧ x.bed = .drain ∧ x.woken) ∧
      ∃ r, s'.step (.resume t) = some r ∧ r.Holds g .write

/-- Once no reader is inside, the writer at the drain only has to get up. -/
theorem Sound.admits (h : s.Sound) (halert : s.Alert) (ht : (t, .drain) ∈ s.lock.beds)
    (hempty : s.lock.state.readers = 0) :
    (∃ x ∈ s.lock.sleepers, x.thread = t ∧ x.bed = .drain ∧ x.woken) ∧
      ∃ r, s.step (.resume t) = some r ∧ r.Holds s.guards.size .write := by
  obtain ⟨x, hx, hxt⟩ := List.mem_map.mp ht
  obtain ⟨rfl, hbed⟩ := Prod.mk.inj hxt
  have hwoken : x.woken := by
    by_contra hnot
    have hpos := halert.drain ⟨x, hx, by simp [hbed], Bool.eq_false_iff.mpr hnot⟩
    omega
  refine ⟨⟨x, hx, rfl, hbed, hwoken⟩, ?_⟩
  have hwishes := h.slept.wishes _ _ ht
  obtain ⟨wish, hwish, haccess⟩ := Option.map_eq_some_iff.mp hwishes
  have hfound : (s.lock.sleepers.find? (·.thread = x.thread)).isSome :=
    List.find?_isSome.mpr ⟨x, hx, by simp⟩
  obtain ⟨y, hy⟩ := Option.isSome_iff_exists.mp hfound
  have hybed := h.bed_unique (mem_beds_of_find? hy) ht
  have hresume : s.lock.resume y = (true, s.lock.rise y.thread) := by
    unfold Lock.resume
    rw [hybed]
    exact if_pos hempty
  refine ⟨s.answer x.thread wish (s.lock.resume y), ?_, ?_⟩
  · simp only [Guarded.step, hwish, hy]
  · rw [hresume]
    cases wish with
    | enter access =>
      cases haccess
      exact holds_entered .write _
    | back => cases haccess

theorem Claims.unrivalled (hs' : s'.Sound) (halert : s'.Alert) (hstands : s.Stands s' t g) :
    s.Unrivalled s' t g where
  claims := hstands.claims
  hasWriter := hstands.claims.hasWriter hs'
  sole := by
    refine ⟨fun u hu => ?_, fun k hk => ?_⟩ <;> rcases hstands.claims with ⟨ht, -⟩ | hg
    · exact hs'.drain_unique ht hu
    · exact absurd hg (hs'.not_writes_of_drain hu)
    · exact absurd hk (hs'.not_writes_of_drain ht)
    · exact hs'.writes_unique hg hk
  enters u access r hr := by
    rw [eq_of_enter hr]
    refine answer_of_refused _ ?_
    rw [(Lock.entered _ u access).of_hasWriter (hstands.claims.hasWriter hs')]
  returns u r hr := by
    obtain ⟨k, rfl⟩ := eq_of_stepBack hr
    have hrefused : (s'.lock.enter u .read).1 = false := by
      rw [(Lock.entered _ u .read).of_hasWriter (hstands.claims.hasWriter hs')]
    obtain ⟨hwish, hguards⟩ := answer_of_refused (.back k) hrefused
    exact ⟨⟨k, hwish⟩, hguards⟩
  sleepers u r hr hu := by
    obtain ⟨wish, x, hx, rfl⟩ := eq_of_resume hr
    have hrefused : (s'.lock.resume x).1 = false := by
      have hresumed := Lock.resumed hx
      have hbed := mem_beds_of_find? hx
      generalize s'.lock.resume x = r at hresumed
      generalize x.bed = bed at hresumed hbed
      cases hresumed with
      | asks entered => rw [entered.of_hasWriter (hstands.claims.hasWriter hs')]
      | writes | waits => exact absurd hbed hu
    obtain ⟨hwish, hguards⟩ := answer_of_refused wish hrefused
    exact ⟨⟨wish, hwish⟩, hguards⟩
  readers := hstands.readers
  reads := hstands.reads
  drained := by
    have hreaders := hs'.balanced.readers
    refine ⟨fun hempty k _ hk => ?_, fun hleft => ?_⟩
    · have hpos := count_pos_iff.mpr ⟨k, hk⟩
      omega
    · by_contra hnot
      obtain ⟨k, hk⟩ := count_pos_iff.mp (Nat.pos_of_ne_zero (hreaders ▸ hnot))
      exact hleft k (hstands.reads k hk) hk
  waits hg := hs'.balanced.readers.trans (hs'.balanced.alone (count_pos_iff.mpr ⟨g, hg⟩))
  admitted hempty := by
    rcases hstands.claims with ⟨ht, hsize⟩ | hg
    · rw [← hsize]
      exact .inr (hs'.admits halert ht hempty)
    · exact .inl hg

/-- Whoever turns up after a writer has claimed the lock, and however many there are: until the
writer drops his guard nobody else gets in, and he gets in as soon as the readers have left who
were inside when he claimed. -/
theorem writer_not_starved {value : α} {ms ns : List (Move τ α)}
    (hs : (new value : Guarded τ α).play ms = some s) (hclaims : s.Claims t g)
    (hs' : s.play ns = some s') (kept : ∀ u, .drop u g ∉ ns) : s.Unrivalled s' t g := by
  have hsound := (Sound.new value).play hs
  have halert := (Alert.new value).play (.new value) hs
  exact Claims.unrivalled (hsound.play hs') (halert.play hsound hs') (hclaims.play hsound hs' kept)

/-- Writer 2 waits for the readers 0 and 1. -/
def intent : List (Move Nat Nat) := [.enter 0 .read, .enter 1 .read, .enter 2 .write]

/-- Reader 0 steps out and wants to come back, a reader and a writer turn up, and reader 1
leaves. -/
def rush : List (Move Nat Nat) :=
  [.enter 3 .read, .stepOut 0 0, .enter 4 .write, .stepBack 0, .resume 3, .drop 1 1, .resume 0]

theorem rush_unrivalled : ∃ s s' : Guarded Nat Nat, (new 4).play intent = some s ∧
    s.Claims 2 2 ∧ s.lock.state.readers = 2 ∧ s.play rush = some s' ∧
    (∀ u, .drop u 2 ∉ rush) ∧ s.Unrivalled s' 2 2 ∧ s'.lock.state.readers = 0 ∧
    s'.lock.beds =
      [(2, .drain), (4, .gate .write), (3, .gate .read), (0, .gate .read)] := by
  have hintent : ((new 4 : Guarded Nat Nat).play intent).map (fun s =>
      (s.lock.beds, s.guards.size, s.lock.state.readers)) = some ([(2, .drain)], 2, 2) := by
    decide +kernel
  have hrush : ((new 4 : Guarded Nat Nat).play (intent ++ rush)).map (fun s =>
      (s.lock.state.readers, s.lock.beds)) =
      some (0, [(2, .drain), (4, .gate .write), (3, .gate .read), (0, .gate .read)]) := by
    decide +kernel
  obtain ⟨s', hs', hend⟩ := Option.map_eq_some_iff.mp hrush
  rw [play, Moves.play_append] at hs'
  obtain ⟨s, hs, hs'⟩ := Option.bind_eq_some_iff.mp hs'
  rw [play, hs] at hintent
  obtain ⟨hbeds, hintent⟩ := Prod.mk.inj (Option.some.inj hintent)
  obtain ⟨hsize, hreaders⟩ := Prod.mk.inj hintent
  obtain ⟨hempty, hbeds'⟩ := Prod.mk.inj hend
  have hclaims : s.Claims 2 2 := .inl ⟨by simp [hbeds], hsize⟩
  have hkept : ∀ u, .drop u 2 ∉ rush := by simp [rush]
  exact ⟨s, s', hs, hclaims, hreaders, hs', hkept, writer_not_starved hs hclaims hs' hkept,
    hempty, hbeds'⟩

end Guarded

end ActorSystem
