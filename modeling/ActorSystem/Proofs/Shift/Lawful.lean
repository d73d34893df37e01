import ActorSystem.Proofs.Shift.Hand

/-!
# Lawful shifts

In a shift from its beginning on, the hand of every worker fits its place, and the hand of every
caller is that on which the rest of its call relies, whatever the others do in between. So what a
thread is about to do, its hand may do (`Lawful.may_next`), and who has workers yet to notify is
about to notify them (`Lawful.signal_of_due`).

* `Lawful.step`: shifts stay lawful.
* `Shift.change`, `Shift.turn`: what a step is to somebody who does not know all of a shift.
-/

namespace ActorSystem

variable {σ : Signature} {company : Company σ} {workers : Nat} {c c' : Shift σ}

namespace Shift

/-- What a thread has at hand, by the motions that it has made. -/
def hand (c : Shift σ) (workers : Nat) (t : Thread) : Hand :=
  (c.past.filter (·.1 = t)).foldl (fun h e => h.after workers e.2.motion e.2.answer) {}

theorem hand_perform (t : Thread) (x : Motion σ) : (c.perform t x).hand workers =
    Function.update (c.hand workers) t ((c.hand workers t).after workers x (x.answer c.site)) := by
  funext u
  rw [Function.update_apply]
  simp only [hand, perform, List.filter_append, List.foldl_append]
  split
  · rename_i hut
    subst hut
    simp
  · rename_i hut
    simp [Ne.symm hut]

theorem hand_perform_self (t : Thread) (x : Motion σ) : (c.perform t x).hand workers t =
    (c.hand workers t).after workers x (x.answer c.site) := by
  rw [hand_perform, Function.update_self]

theorem hand_perform_of_ne {t u : Thread} (h : u ≠ t) (x : Motion σ) :
    (c.perform t x).hand workers u = c.hand workers u := by
  rw [hand_perform, Function.update_of_ne h]

end Shift

/-- What a call comes to: an empty hand, and if it was one to stop, everybody was told. -/
def Call.Over (workers : Nat) (x : Call σ) (h : Hand) : Prop :=
  h.Idle ∧ (x = .stopAll → ∀ w, w < workers → w ∈ h.told)

theorem Call.duty_follows (hc : company.Civil) (x : Call σ) {h : Hand} (hidle : h.Idle) :
    Duty.Follows workers false h (x.duty company workers) fun _ h => x.Over workers h := by
  cases x with
  | serve program =>
    refine Dialogue.Follows.mono
      (Duty.ofAct_follows (R := fun _ g => g = .away) ?_ hidle.mutex hidle.due) ?_
    · rw [hidle.grip]
      exact Act.interpret_keeps hc program
    · rintro _ h' ⟨hgrip, hmutex, hdue⟩
      exact ⟨⟨hgrip, hmutex, hdue⟩, nofun⟩
  | stopAll =>
    refine Dialogue.Follows.mono
      (Duty.stopAll_follows (fun w hw => List.mem_range.mp hw) hidle) ?_
    rintro _ h' ⟨hidle', htold⟩
    exact ⟨hidle', fun _ w hw => htold w (.inl (List.mem_range.mpr hw))⟩

theorem sweep_follows (hc : company.Civil) (w limit : Nat) {h : Hand} (hidle : h.Idle) :
    Duty.Follows workers true h (.ofAct workers (Act.sweepWithin company w limit))
      fun _ h => h.Idle := by
  refine Dialogue.Follows.mono
    (Duty.ofAct_follows (R := fun _ g => g = .away) ?_ hidle.mutex hidle.due) ?_
  · rw [hidle.grip]
    exact Act.sweepWithin_keeps hc w limit
  · rintro _ h' ⟨hgrip, hmutex, hdue⟩
    exact ⟨hgrip, hmutex, hdue⟩

/-- The hand of a caller, by what is left of its call. -/
def Call.Suits (workers : Nat) (h : Hand) : Option (Call σ × Duty σ Unit) → Prop
  | none => h.Idle
  | some (x, d) => Duty.Follows workers false h d fun _ h => x.Over workers h

structure Lawful (workers : Nat) (c : Shift σ) : Prop where
  places : ∀ w, (c.places w).Fits workers w (c.hand workers (.worker w))
  calls : ∀ k, Call.Suits workers (c.hand workers (.caller k)) (c.calls k)
  /-- There are no more workers than that. -/
  beyond : ∀ w, workers ≤ w → c.places w = .hired

namespace Lawful

theorem start (config : Config) (env : σ.Env) : Lawful workers (Shift.start config env) where
  places _ := Hand.idle_empty
  calls _ := Hand.idle_empty
  beyond _ _ := rfl

theorem setPlace (hl : Lawful workers c) {w : Nat} {place : Place σ}
    (hw : c.places w ≠ .hired) (hfits : place.Fits workers w (c.hand workers (.worker w))) :
    Lawful workers (c.setPlace w place) where
  places v := by
    show Place.Fits _ _ _ (Function.update c.places w place v)
    rw [Function.update_apply]
    split
    · rename_i hv
      subst hv
      exact hfits
    · exact hl.places v
  calls := hl.calls
  beyond v hv := by
    show Function.update c.places w place v = .hired
    rw [Function.update_apply, if_neg]
    · exact hl.beyond v hv
    · rintro rfl
      exact hw (hl.beyond v hv)

theorem setCall (hl : Lawful workers c) {k : Nat} {call : Option (Call σ × Duty σ Unit)}
    (hsuits : Call.Suits workers (c.hand workers (.caller k)) call) :
    Lawful workers (c.setCall k call) where
  places := hl.places
  calls j := by
    show Call.Suits _ _ (Function.update c.calls k call j)
    rw [Function.update_apply]
    split
    · rename_i hj
      subst hj
      exact hsuits
    · exact hl.calls j
  beyond := hl.beyond

theorem step (hc : company.Civil) (hl : Lawful workers c) {m : Shift.Move σ}
    (h : c.step company workers m = some c') : Lawful workers c' := by
  rcases Shift.step_cases h with ⟨w, limit, -, hready, rfl⟩ | ⟨w, x, next, -, hw, hnext, -, rfl⟩ |
    ⟨k, x, -, hk, rfl⟩ | ⟨k, x, -, hk, rfl⟩ | ⟨k, call, x, next, -, hk, -, rfl⟩
  · have hidle := hl.places w
    rw [hready] at hidle
    exact hl.setPlace (by simp [hready]) (Place.fits_ofSweep (sweep_follows hc w limit hidle))
  · obtain ⟨-, hfits⟩ := (hl.places w).next hw hnext
    refine ⟨fun v => ?_, fun k => ?_, fun v hv => ?_⟩
    · show Place.Fits _ _ ((c.perform (.worker w) x).hand workers (.worker v))
        (Function.update c.places w _ v)
      by_cases hv : v = w
      · subst hv
        rw [Shift.hand_perform_self, Function.update_self]
        exact hfits _
      · rw [Shift.hand_perform_of_ne (by simpa using hv), Function.update_of_ne hv]
        exact hl.places v
    · show Call.Suits _ ((c.perform (.worker w) x).hand workers (.caller k)) (c.calls k)
      rw [Shift.hand_perform_of_ne (by simp)]
      exact hl.calls k
    · show Function.update c.places w _ v = .hired
      rw [Function.update_of_ne (by omega)]
      exact hl.beyond v hv
  · have hidle := hl.calls k
    rw [hk] at hidle
    exact hl.setCall (x.duty_follows hc hidle)
  · have hover := hl.calls k
    rw [hk] at hover
    have hdone : Lawful workers (c.setCall k none) := hl.setCall hover.1
    exact ⟨hdone.places, hdone.calls, hdone.beyond⟩
  · have hfollows := hl.calls k
    rw [hk] at hfollows
    refine ⟨fun v => ?_, fun j => ?_, hl.beyond⟩
    · show Place.Fits _ _ ((c.perform (.caller k) x).hand workers (.worker v)) (c.places v)
      rw [Shift.hand_perform_of_ne (by simp)]
      exact hl.places v
    · show Call.Suits _ ((c.perform (.caller k) x).hand workers (.caller j))
        (Function.update c.calls k _ j)
      by_cases hj : j = k
      · subst hj
        rw [Shift.hand_perform_self, Function.update_self]
        exact hfollows.2 _
      · rw [Shift.hand_perform_of_ne (by simpa using hj), Function.update_of_ne hj]
        exact hl.calls j

/-! ## What comes next -/

/-- What a thread is about to do, its hand may do. -/
theorem may_next (hl : Lawful workers c) {t : Thread} {x : Motion σ}
    (h : c.next workers t = some x) : (c.hand workers t).may workers x := by
  rcases Shift.next_cases h with ⟨w, f, rfl, hw, hnext⟩ | ⟨k, call, f, rfl, hk⟩
  · exact ((hl.places w).next hw hnext).1
  · have hsuits := hl.calls k
    rw [hk] at hsuits
    exact Hand.may_of_allows hsuits.1

/-- Whoever has something at hand has something to do. -/
theorem exists_next (hl : Lawful workers c) {t : Thread} (hbusy : ¬ (c.hand workers t).Idle) :
    ∃ x, c.next workers t = some x := by
  cases t with
  | worker w =>
    have hfits := hl.places w
    have hw : w < workers := by
      by_contra hge
      rw [hl.beyond w (Nat.le_of_not_lt hge)] at hfits
      exact hbusy hfits
    simp only [Shift.next, if_pos hw]
    cases hplace : c.places w with
    | hired | head | ready | swept | asleep | quitting | gone =>
      rw [hplace] at hfits
      exact absurd hfits hbusy
    | _ => exact ⟨_, rfl⟩
  | caller k =>
    have hsuits := hl.calls k
    simp only [Shift.next]
    cases hcall : c.calls k with
    | none =>
      rw [hcall] at hsuits
      exact absurd hsuits hbusy
    | some call =>
      obtain ⟨x, d⟩ := call
      rw [hcall] at hsuits
      cases d with
      | done u => exact absurd hsuits.1 hbusy
      | ask x next => exact ⟨x, rfl⟩

/-- Whoever has workers yet to notify is about to do so, and does nothing else before. -/
theorem signal_of_due (hl : Lawful workers c) {t : Thread} (hdue : (c.hand workers t).due ≠ []) :
    ∃ w op, c.next workers t = some (.signal w op) := by
  obtain ⟨x, hx⟩ := hl.exists_next fun hidle => hdue hidle.due
  cases x with
  | signal w op => exact ⟨w, op, hx⟩
  | atom x =>
    refine absurd ?_ hdue
    rcases Shift.next_cases hx with ⟨w, f, rfl, -, hnext⟩ | ⟨k, call, f, rfl, hk⟩
    · have hfits := hl.places w
      cases hplace : c.places w with
      | hired | head | ready | swept | asleep | quitting | gone =>
        rw [hplace] at hfits
        exact hfits.due
      | peek | peeked | test | enter | check | checked | doze =>
        rw [hplace] at hfits
        exact hfits.2.2
      | look y next =>
        rw [hplace] at hfits
        exact hfits.2.1
      | sweeping y next =>
        rw [hplace] at hfits hnext
        cases hnext
        exact hfits.1.2.2
    · have hsuits := hl.calls k
      rw [hk] at hsuits
      exact hsuits.1.2.2

end Lawful

namespace Shift

/-- What a move is to somebody who knows the site and the hands only. -/
inductive Change (workers : Nat) (c c' : Shift σ) (m : Move σ) : Prop where
  | quiet (site : c'.site = c.site) (hand : c'.hand workers = c.hand workers)
  | moved (t : Thread) (x : Motion σ) (move : m = .of t) (next : c.next workers t = some x)
    (ready : x.ready c.site) (site : c'.site = x.effect c.site)
    (hand : c'.hand workers = Function.update (c.hand workers) t
      ((c.hand workers t).after workers x (x.answer c.site)))

theorem change {m : Move σ} (h : c.step company workers m = some c') : Change workers c c' m := by
  rcases step_cases h with ⟨w, limit, -, -, rfl⟩ | ⟨w, x, next, rfl, hw, hnext, hready, rfl⟩ |
    ⟨k, x, -, -, rfl⟩ | ⟨k, x, -, -, rfl⟩ | ⟨k, call, x, next, rfl, hk, hready, rfl⟩
  · exact .quiet rfl rfl
  · exact .moved (.worker w) x rfl (next_worker hw hnext) hready rfl (hand_perform _ _)
  · exact .quiet rfl rfl
  · exact .quiet rfl rfl
  · exact .moved (.caller k) x rfl (next_caller hk) hready rfl (hand_perform _ _)

/-- What a move is to somebody who knows the site and worker `w` only. -/
inductive Turn (workers : Nat) (c c' : Shift σ) (w : Nat) (m : Move σ) : Prop where
  | begins (limit : Nat) (d : Duty σ Unit) (move : m = .sweep w limit) (place : c.places w = .ready)
    (place' : c'.places w = .ofSweep d) (site : c'.site = c.site)
  | goes (x : Motion σ) (f : x.Answer → Place σ) (move : m = .work w) (lt : w < workers)
    (next : (c.places w).next w = some ⟨x, f⟩) (ready : x.ready c.site)
    (place' : c'.places w = f (x.answer c.site)) (site : c'.site = x.effect c.site)
  | stays (begins : ∀ limit, m ≠ .sweep w limit) (goes : m ≠ .work w)
    (place' : c'.places w = c.places w)
    (site : c'.site = c.site ∨ ∃ t x, t ≠ .worker w ∧ c.next workers t = some x ∧
      c'.site = x.effect c.site)

theorem turn {m : Move σ} (h : c.step company workers m = some c') (w : Nat) :
    Turn workers c c' w m := by
  rcases step_cases h with ⟨v, limit, rfl, hready, rfl⟩ |
    ⟨v, x, next, rfl, hv, hnext, hready, rfl⟩ | ⟨k, x, rfl, -, rfl⟩ | ⟨k, x, rfl, -, rfl⟩ |
    ⟨k, call, x, next, rfl, hk, -, rfl⟩
  · by_cases hwv : w = v
    · subst hwv
      exact .begins limit _ rfl hready (Function.update_self ..) rfl
    · refine .stays (fun limit h => hwv ?_) nofun (Function.update_of_ne hwv ..) (.inl rfl)
      cases h
      rfl
  · by_cases hwv : w = v
    · subst hwv
      exact .goes x next rfl hv hnext hready (Function.update_self ..) rfl
    · refine .stays nofun (fun h => hwv ?_) (Function.update_of_ne hwv ..)
        (.inr ⟨.worker v, x, ?_, next_worker hv hnext, rfl⟩)
      · cases h
        rfl
      · simpa using Ne.symm hwv
  · exact .stays nofun nofun rfl (.inl rfl)
  · exact .stays nofun nofun rfl (.inl rfl)
  · exact .stays nofun nofun rfl (.inr ⟨.caller k, x, nofun, next_caller hk, rfl⟩)

end Shift

end ActorSystem
