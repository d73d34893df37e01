import ActorSystem.Proofs.Sweep.Books

/-!
# A sweep without work

As long as no actor of the table is idle and has mail, a sweep by either strategy leaves no trace:
who is idle is taken and let go again, and whoever steps out of the lock steps back into it.

* `sweepWithin_of_no_work`: the world after such a sweep is the world before it.
-/

namespace ActorSystem.Act

variable {σ : Signature} {company : Company σ} {w : World σ} {a : ActorRef}

/-- Whoever was idle and has been taken is idle again when it is let go. -/
theorem release_claim (idle : w.pool.isIdle a) :
    (w.pool.actors.modify a fun x => { x with phase := .processing }).modify a
      (fun x => { x with phase := .idle }) = w.pool.actors := by
  refine Array.ext_getElem? fun c => ?_
  rw [Array.getElem?_modify, Array.getElem?_modify]
  by_cases hac : a = c
  · subst hac
    obtain ⟨x, hx, hphase⟩ := Option.map_eq_some_iff.mp (Pool.isIdle_iff.mp idle)
    change w.pool.actors[a]? = some x at hx
    rw [if_pos rfl, if_pos rfl, hx, ← hphase]
    rfl
  · rw [if_neg hac, if_neg hac]

/-- A drain that finds no mail, for a reader of the table or for somebody outside of the lock. -/
theorem turn_of_no_work (company : Company σ) (strategy : SweepStrategy)
    (hwork : w.pool.needsProcessing a = false)
    (hinside : strategy ≠ .deferred → 0 < w.pool.tableLock.readers) :
    (turn company strategy a).run w = (.skipped, w) := by
  by_cases idle : w.pool.isIdle a
  · have hmail : (w.pool.mailOf a).length = 0 := by
      simpa [Pool.needsProcessing, idle] using hwork
    have hclaim : (Atom.claim a).effect w =
        w.modifyActor a fun x => { x with phase := .processing } := if_pos idle
    have hclaimed : ((Atom.claim a).effect w).pool.mailOf a = w.pool.mailOf a := by
      obtain ⟨x, hx, -⟩ := Option.map_eq_some_iff.mp (Pool.isIdle_iff.mp idle)
      have hbox : w.pool.boxOf a = some x.box := by rw [Pool.boxOf, hx]; rfl
      have hbox' := (Atom.boxOf_effect (.claim a) w a).trans hbox
      rw [Pool.mailOf_eq_of_boxOf hbox', Pool.mailOf_eq_of_boxOf hbox, Atom.mail_effect]
    have hnone : (((stepOf strategy .leaveRead).run ((Atom.claim a).effect w)).2.pool.mailOf
        a).length = 0 := by
      rw [stepOf_mailOf, hclaimed, hmail]
    obtain ⟨hdrain, -⟩ := drain_of_no_mail company hnone
    rw [turn_run idle]
    simp only [afterClaim, run_bind, run_pure, hdrain]
    refine congrArg (Outcome.skipped, ·) ?_
    have hfinish : ∀ u : World σ, ((finish a .skipped).run u).2 =
        u.modifyActor a fun x => { x with phase := .idle } := fun u => rfl
    have hrelease := release_claim idle
    rw [hclaim, hfinish]
    cases strategy with
    | deferred =>
      exact congrArg (fun actors => ({ w with pool := { w.pool with actors } } : World σ)) hrelease
    | handoff =>
      have hreaders : 0 < w.pool.tableLock.readers := hinside (by decide)
      have hlock := LockState.addReader_dropReader hreaders
      exact congrArg₂ (fun actors tableLock =>
        ({ w with pool := { w.pool with actors, tableLock } } : World σ)) hrelease hlock
  · change Act.run (if w.pool.isIdle a then _ else _) ((Atom.claim a).effect w) = _
    rw [if_neg idle]
    exact congrArg (Outcome.skipped, ·) (if_neg idle)

theorem drainAll_of_no_work (worker : Nat) {actors : List ActorRef}
    (hwork : ∀ a ∈ actors, w.pool.needsProcessing a = false) :
    (drainAll company worker actors).run w = (0, w) := by
  induction actors with
  | nil => rfl
  | cons a rest ih =>
    have hturn := turn_of_no_work company .deferred
      (hwork a List.mem_cons_self) fun hne => absurd rfl hne
    rw [drainAll_cons, run_bind, hturn]
    exact ih fun c hc => hwork c (List.mem_cons_of_mem a hc)

theorem visitSlots_of_no_work (company : Company σ) (worker fuel n : Nat)
    (hwork : ∀ a ∈ w.pool.table, w.pool.needsProcessing a = false)
    (hinside : 0 < w.pool.tableLock.readers) :
    ((visitSlots company worker fuel n).run w).2 = w := by
  induction fuel generalizing n with
  | zero => rfl
  | succ fuel ih =>
    rw [visitSlots, run_bind]
    cases ha : w.pool.table[n]? with
    | none =>
      obtain ⟨hrun, -⟩ := visitSlot_none company ha worker
      rw [hrun]
      rfl
    | some a =>
      obtain ⟨hrun, -⟩ := visitSlot_some company ha worker
      have hturn := turn_of_no_work company .handoff
        (hwork a (List.mem_of_getElem? ha)) fun _ => hinside
      rw [hrun, run_bind, hturn]
      exact ih (n + 1)

theorem sweepWithin_of_no_work (worker limit : Nat) (hwork : w.pool.hasPendingWork = false) :
    ((sweepWithin company worker limit).run w).2 = w := by
  have hnone : ∀ a ∈ w.pool.table, w.pool.needsProcessing a = false := by
    intro a ha
    exact Bool.eq_false_iff.mpr (List.any_eq_false.mp hwork a ha)
  cases hs : w.pool.config.sweep with
  | deferred =>
    obtain ⟨hrun, -⟩ := sweepWithin_of_deferred company hs worker limit
    have hsnapshot : (snapshot : Act σ _).run w = (w.pool.table, w) := rfl
    rw [hrun, sweepDeferred, run_bind, hsnapshot, run_bind, drainAll_of_no_work worker hnone]
    rfl
  | handoff =>
    obtain ⟨hrun, -⟩ := sweepWithin_of_handoff company hs worker limit
    have hinside : 0 < ((Atom.lock .enterRead).effect w).pool.tableLock.readers :=
      Nat.succ_pos w.pool.tableLock.readers
    have hentered : (lockTable .enterRead).run w = ((), (Atom.lock .enterRead).effect w) := rfl
    have hstill : ((visitSlots company worker limit 0).run ((Atom.lock .enterRead).effect w)).2 =
        (Atom.lock .enterRead).effect w :=
      visitSlots_of_no_work company worker limit 0 hnone hinside
    rw [hrun, walk, run_bind, hentered, run_bind, hstill]
    rfl

end ActorSystem.Act
