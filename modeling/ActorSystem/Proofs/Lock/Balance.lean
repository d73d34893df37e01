import Mathlib.Data.List.Nodup
import Mathlib.Logic.Function.Basic
import ActorSystem.Lock.Waiting

/-!
# What the state of a lock counts

The flag and the count of a lock in balance with the threads that are inside: the count is that
of the readers, and the flag is for one writer, who is inside and then alone, or asleep at the
drain. Each operation moves both sides by the same amount. Beside that, a thread sleeps at most
once, and for what it asked.

* `Balanced.enter`, `Balanced.resume`: who is granted access is counted, who sleeps is not.
* `Balanced.leaveRead`, `Balanced.leaveWrite`: who leaves is no longer counted.
* `Slept.enter`, `Slept.resume`: the sleepers are those whose wish was not granted.
-/

namespace ActorSystem

/-- What a thread in this bed will have when it is inside. -/
def Bed.access : Bed → Access
  | gate access => access
  | drain => .write

namespace Lock

variable {τ : Type} {l : Lock τ} {t : τ}

/-! ## Beds -/

/-- Who sleeps where; whether somebody was woken does not matter. -/
def beds (l : Lock τ) : List (τ × Bed) := l.sleepers.map fun s => (s.thread, s.bed)

def drains (l : Lock τ) : Nat := l.beds.countP (·.2 = .drain)

theorem beds_wakeFirst (p : Bed → Bool) (ss : List (Sleeper τ)) :
    (wakeFirst p ss).map (fun s => (s.thread, s.bed)) = ss.map fun s => (s.thread, s.bed) := by
  induction ss with
  | nil => rfl
  | cons s rest ih =>
    simp only [wakeFirst]
    split
    · rfl
    · simp only [List.map_cons, ih]

@[simp] theorem beds_leaveRead : l.leaveRead.beds = l.beds := by
  unfold leaveRead beds
  dsimp only
  split
  · split
    · exact beds_wakeFirst _ _
    · rfl
  · split
    · exact beds_wakeFirst _ _
    · rfl

@[simp] theorem beds_leaveWrite : l.leaveWrite.beds = l.beds := rfl

@[simp] theorem beds_openGate : l.openGate.beds = l.beds := by
  unfold openGate beds wakeAll
  rw [List.map_map]
  refine List.map_congr_left fun s _ => ?_
  simp only [Function.comp_apply]
  split <;> rfl

theorem beds_sleep (t : τ) (bed : Bed) : (l.sleep t bed).beds = l.beds ++ [(t, bed)] := by
  simp [sleep, beds]

theorem drains_sleep (t : τ) (bed : Bed) :
    (l.sleep t bed).drains = l.drains + if bed = .drain then 1 else 0 := by
  simp [drains, beds_sleep, List.countP_cons]

theorem thread_of_find? [DecidableEq τ] {s : Sleeper τ}
    (hs : l.sleepers.find? (·.thread = t) = some s) : s.thread = t := by
  have ht := List.find?_some hs
  exact of_decide_eq_true ht

/-- The thread that gets up is the sleeper that was found. -/
theorem beds_rise [DecidableEq τ] {s : Sleeper τ}
    (hs : l.sleepers.find? (·.thread = t) = some s) :
    ∃ before after, l.beds = before ++ (t, s.bed) :: after ∧ (l.rise t).beds = before ++ after := by
  obtain ⟨ht, before, after, hsplit, hbefore⟩ := List.find?_eq_some_iff_append.mp hs
  have hrise : l.sleepers.eraseP (·.thread = t) = before ++ after := by
    rw [hsplit, List.eraseP_append_right _ (by simpa using hbefore)]
    simp [of_decide_eq_true ht]
  refine ⟨before.map fun s => (s.thread, s.bed), after.map fun s => (s.thread, s.bed), ?_, ?_⟩
  · rw [beds, hsplit, List.map_append, List.map_cons, of_decide_eq_true ht]
  · rw [rise, beds, hrise, List.map_append]

theorem drains_rise [DecidableEq τ] {s : Sleeper τ}
    (hs : l.sleepers.find? (·.thread = t) = some s) :
    (l.rise t).drains + (if s.bed = .drain then 1 else 0) = l.drains := by
  obtain ⟨before, after, hbeds, hrise⟩ := beds_rise hs
  rw [drains, drains, hbeds, hrise]
  simp only [List.countP_append, List.countP_cons, decide_eq_true_eq]
  omega

/-! ## Balance -/

structure Balanced (l : Lock τ) (reading writing : Nat) : Prop where
  readers : l.state.readers = reading
  claims : writing + l.drains = if l.state.hasWriter then 1 else 0
  alone : 0 < writing → reading = 0

/-- What a thread adds to those with this kind of access, by the lock's answer to what it asked. -/
def gain (granted : Bool) (asked access : Access) : Nat :=
  if granted ∧ asked = access then 1 else 0

namespace Balanced

variable {reading writing : Nat}

theorem writing_le_one (h : l.Balanced reading writing) : writing ≤ 1 := by
  have hclaims := h.claims
  split at hclaims <;> omega

theorem hasWriter (h : l.Balanced reading writing) (hw : 0 < writing) : l.state.hasWriter := by
  have hclaims := h.claims
  split at hclaims
  · assumption
  · omega

theorem sleep_gate (h : l.Balanced reading writing) (access : Access) :
    (l.sleep t (.gate access)).Balanced reading writing where
  readers := h.readers
  claims := by
    rw [drains_sleep, if_neg nofun]
    exact h.claims
  alone := h.alone

/-- The writer with the claim enters or waits for the readers. -/
theorem enterClaimed (hreaders : l.state.readers = reading) (hclaim : l.state.hasWriter)
    (hnone : l.drains = 0) :
    (l.enterClaimed t).2.Balanced reading (gain (l.enterClaimed t).1 .write .write) := by
  unfold Lock.enterClaimed
  split
  · rename_i hempty
    exact ⟨hreaders, by simp [gain, hclaim, hnone], fun _ => hreaders.symm.trans hempty⟩
  · refine ⟨hreaders, ?_, fun hw => absurd hw (by simp [gain])⟩
    rw [drains_sleep, hnone]
    simp [gain, sleep, hclaim]

theorem enter (h : l.Balanced reading writing) (access : Access) :
    (l.enter t access).2.Balanced (reading + gain (l.enter t access).1 access .read)
      (writing + gain (l.enter t access).1 access .write) := by
  cases access with
  | read =>
    unfold Lock.enter
    dsimp only
    split
    · rename_i hopen
      have hfree : l.state.hasWriter = false := by
        simp only [LockState.letsReadersIn, Bool.and_eq_true, Bool.not_eq_true'] at hopen
        exact hopen.1
      have hclaims := h.claims
      rw [hfree] at hclaims
      refine ⟨by simp [gain, LockState.addReader, h.readers], ?_, fun hw => ?_⟩
      · exact h.claims
      · simp [gain] at hw
        simp at hclaims
        omega
    · exact h.sleep_gate .read
  | write =>
    unfold Lock.enter
    dsimp only
    split
    · exact h.sleep_gate .write
    · rename_i hfree
      have hclaims := h.claims
      rw [if_neg hfree] at hclaims
      have hnone : Lock.drains { l with state := l.state.claim } = 0 := by
        have hdrains : l.drains = 0 := by omega
        exact hdrains
      have hzero : writing = 0 := by omega
      have hentered := enterClaimed (t := t) (l := { l with state := l.state.claim }) h.readers rfl
        hnone
      subst hzero
      simpa [gain] using hentered

theorem resume [DecidableEq τ] (h : l.Balanced reading writing) {s : Sleeper τ}
    (hs : l.sleepers.find? (·.thread = t) = some s) :
    (l.resume s).2.Balanced (reading + gain (l.resume s).1 s.bed.access .read)
      (writing + gain (l.resume s).1 s.bed.access .write) := by
  have ht := thread_of_find? hs
  have hrise := drains_rise hs
  have hclaims := h.claims
  subst ht
  unfold Lock.resume
  cases hbed : s.bed with
  | gate access =>
    rw [hbed, if_neg nofun] at hrise
    have hup : (l.rise s.thread).Balanced reading writing :=
      ⟨h.readers, by rw [hrise.symm] at hclaims; exact hclaims, h.alone⟩
    exact hup.enter access
  | drain =>
    rw [hbed, if_pos rfl] at hrise
    have hclaim : l.state.hasWriter := by
      by_contra hno
      rw [if_neg hno] at hclaims
      omega
    rw [if_pos hclaim] at hclaims
    have hzero : writing = 0 := by omega
    have hentered := enterClaimed (t := s.thread) (l := l.rise s.thread) h.readers hclaim (by omega)
    subst hzero
    simpa [gain, Bed.access] using hentered

theorem leaveRead (h : l.Balanced (reading + 1) writing) :
    l.leaveRead.Balanced reading writing where
  readers := by
    show l.state.readers - 1 = reading
    rw [h.readers]
    rfl
  claims := by
    rw [drains, beds_leaveRead]
    exact h.claims
  alone hw := absurd (h.alone hw) (Nat.succ_ne_zero _)

theorem leaveWrite (h : l.Balanced reading (writing + 1)) :
    l.leaveWrite.Balanced reading writing where
  readers := h.readers
  claims := by
    have hclaims := h.claims
    rw [if_pos (h.hasWriter (Nat.succ_pos _))] at hclaims
    rw [drains, beds_leaveWrite, ← drains]
    simp only [Lock.leaveWrite, LockState.unclaim]
    simp
    omega
  alone hw := h.alone (Nat.succ_pos _)

theorem openGate (h : l.Balanced reading writing) : l.openGate.Balanced reading writing where
  readers := h.readers
  claims := by
    rw [drains, beds_openGate]
    exact h.claims
  alone := h.alone

end Balanced

/-! ## Sleepers and their wishes -/

/-- A thread sleeps at most once, and for what it wishes. -/
structure Slept (l : Lock τ) (wish : τ → Option Access) : Prop where
  once : (l.beds.map Prod.fst).Nodup
  wishes : ∀ t bed, (t, bed) ∈ l.beds → wish t = some bed.access

/-- What a thread still wishes, by the lock's answer to what it asked. -/
def pending (granted : Bool) (asked : Access) : Option Access :=
  if granted then none else some asked

namespace Slept

variable [DecidableEq τ] {wish : τ → Option Access}

omit [DecidableEq τ] in
theorem of_beds {l' : Lock τ} (h : l.Slept wish) (hl : l'.beds = l.beds) : l'.Slept wish :=
  ⟨hl ▸ h.once, hl ▸ h.wishes⟩

/-- A thread that is up may wish what it wants. -/
theorem update (h : l.Slept wish) (ht : ∀ bed, (t, bed) ∉ l.beds) (w : Option Access) :
    l.Slept (Function.update wish t w) where
  once := h.once
  wishes u bed hu := by
    have hne : u ≠ t := by
      rintro rfl
      exact ht bed hu
    rw [Function.update_of_ne hne]
    exact h.wishes u bed hu

theorem sleep (h : l.Slept wish) (ht : ∀ bed, (t, bed) ∉ l.beds) (bed : Bed) :
    (l.sleep t bed).Slept (Function.update wish t (some bed.access)) where
  once := by
    rw [beds_sleep, List.map_append]
    refine List.nodup_append.mpr ⟨h.once, List.nodup_singleton t, ?_⟩
    rintro u hu v hv rfl
    cases List.mem_singleton.mp hv
    obtain ⟨⟨u, b⟩, hub, rfl⟩ := List.mem_map.mp hu
    exact ht b hub
  wishes u b hub := by
    rw [beds_sleep] at hub
    rcases List.mem_append.mp hub with hub | hub
    · exact (h.update ht _).wishes u b hub
    · cases List.mem_singleton.mp hub
      rw [Function.update_self]

theorem enterClaimed (h : l.Slept wish) (ht : ∀ bed, (t, bed) ∉ l.beds) :
    (l.enterClaimed t).2.Slept
      (Function.update wish t (pending (l.enterClaimed t).1 .write)) := by
  unfold Lock.enterClaimed
  split
  · exact h.update ht _
  · exact h.sleep ht .drain

theorem enter (h : l.Slept wish) (ht : ∀ bed, (t, bed) ∉ l.beds) (access : Access) :
    (l.enter t access).2.Slept (Function.update wish t (pending (l.enter t access).1 access)) := by
  cases access with
  | read =>
    unfold Lock.enter
    dsimp only
    split
    · exact (h.update ht _).of_beds rfl
    · exact h.sleep ht (.gate .read)
  | write =>
    unfold Lock.enter
    dsimp only
    split
    · exact h.sleep ht (.gate .write)
    · exact enterClaimed (l := { l with state := l.state.claim }) (h.of_beds rfl) ht

theorem resume (h : l.Slept wish) {s : Sleeper τ}
    (hs : l.sleepers.find? (·.thread = t) = some s) :
    (l.resume s).2.Slept
      (Function.update wish t (pending (l.resume s).1 s.bed.access)) := by
  have ht := thread_of_find? hs
  obtain ⟨before, after, hbeds, hrise⟩ := beds_rise hs
  have hsub : (l.rise t).beds.Sublist l.beds := by
    rw [hrise, hbeds]
    exact (List.Sublist.refl before).append (List.sublist_cons_self _ _)
  have hup : (l.rise t).Slept wish :=
    ⟨h.once.sublist (hsub.map _), fun u b hub => h.wishes u b (hsub.subset hub)⟩
  have hgone : ∀ bed, (t, bed) ∉ (l.rise t).beds := by
    intro bed hbed
    have honce := h.once
    rw [hbeds, List.map_append, List.map_cons] at honce
    have hnot := (List.nodup_middle.mp honce)
    rw [List.nodup_cons, ← List.map_append, ← hrise] at hnot
    exact hnot.1 (List.mem_map.mpr ⟨(t, bed), hbed, rfl⟩)
  subst ht
  unfold Lock.resume
  cases s.bed with
  | gate access => exact hup.enter hgone access
  | drain => exact hup.enterClaimed hgone

end Slept

end Lock

end ActorSystem
