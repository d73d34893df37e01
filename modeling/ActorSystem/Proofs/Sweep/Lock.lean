import ActorSystem.Proofs.Crew.Table
import ActorSystem.Proofs.Shift.Grip

/-!
# The lock after a thread

A thread that follows the rules of grips and that nobody disturbs leaves the lock around the table
as its last grip says, on top of what the lock was without it. So between two routines the lock is
free, and none of them has to wait.

* `Grips.lock`, `Grips.lock_visits`: along an act.
* `Grips.admits`: alone at the table, a thread never waits for its lock.
* `lock_of_routines`: after any routines.
-/

namespace ActorSystem

variable {σ : Signature} {α : Type} {sweeps : Bool} {g : Grip} {w : World σ} {company : Company σ}
variable {base : LockState}

/-- The lock of a table at which a thread has this grip, if it was `base` without the thread. -/
def Grip.lock (base : LockState) : Grip → LockState
  | away => base
  | reading => base.addReader
  | claiming | writing | boxed _ => base.claim

theorem LockState.unclaim_claim {s : LockState} (h : s.hasWriter = false) :
    s.claim.unclaim = s := by
  obtain ⟨writer, readers⟩ := s
  cases h
  rfl

theorem Grip.lock_effect (hbase : base.hasWriter = false) {x : Atom σ} (hx : g.allows sweeps x)
    (hw : w.pool.tableLock = g.lock base) :
    (x.effect w).pool.tableLock = (g.after x (x.answer w)).lock base := by
  rw [Atom.tableLock_effect]
  cases x with
  | alter f => exact hx.elim
  | lock op =>
    dsimp only
    rw [hw]
    cases op with
    | enterRead | leaveRead | claim | awaitReaders =>
      obtain rfl : g = _ := hx
      rfl
    | leaveWrite =>
      cases g with
      | writing | boxed b => exact LockState.unclaim_claim hbase
      | away | reading | claiming => cases hx
  | enroll y =>
    obtain rfl : g = .boxed y.box := hx
    exact hw
  | createMailbox c =>
    generalize (Atom.createMailbox c).answer w = y
    cases y with
    | ok b => cases g <;> exact hw
    | error e => cases g <;> exact hw
  | _ => cases g <;> exact hw

namespace Act

theorem Grips.lock {t : Act σ α} {R : α → Grip → Prop} (ht : Grips sweeps g t R)
    (hbase : base.hasWriter = false) (hw : w.pool.tableLock = g.lock base) :
    ∃ g', R (t.run w).1 g' ∧ (t.run w).2.pool.tableLock = g'.lock base := by
  induction t generalizing w g with
  | done a => exact ⟨g, ht, hw⟩
  | ask x next ih => exact ih _ (ht.2 _) (Grip.lock_effect hbase ht.1 hw)

theorem Grips.lock_visits {t : Act σ α} {R : α → Grip → Prop} (ht : Grips sweeps g t R)
    (hbase : base.hasWriter = false) (hw : w.pool.tableLock = g.lock base) :
    ∀ v ∈ t.visits w, ∃ g' : Grip, g'.allows sweeps v.atom ∧
      v.world.pool.tableLock = g'.lock base := by
  induction t generalizing w g with
  | done a => exact fun v hv => nomatch hv
  | ask x next ih =>
    intro v hv
    rcases List.mem_cons.mp hv with rfl | hv
    · exact ⟨g, ht.1, hw⟩
    · exact ih _ (ht.2 _) (Grip.lock_effect hbase ht.1 hw) v hv

/-- A thread that has the table for itself never waits for the lock around it. -/
theorem Grips.admits {t : Act σ α} {R : α → Grip → Prop} (ht : Grips sweeps g t R)
    (hw : w.pool.tableLock = g.lock {}) : ∀ v ∈ t.visits w, ∀ op, v.atom = .lock op →
      v.world.pool.tableLock.admits op := by
  intro v hv op hop
  obtain ⟨g', hallows, hlock⟩ := Grips.lock_visits ht rfl hw v hv
  rw [hop] at hallows
  rw [hlock]
  cases op with
  | enterRead | claim | awaitReaders =>
    obtain rfl : g' = _ := hallows
    rfl
  | leaveRead | leaveWrite => rfl

theorem Keeps.lock_eq {t : Act σ α} (ht : Keeps sweeps .away t)
    (hw : w.pool.tableLock.hasWriter = false) :
    (t.run w).2.pool.tableLock = w.pool.tableLock := by
  obtain ⟨g', rfl, hlock⟩ := Grips.lock ht hw rfl
  exact hlock

theorem Keeps.lock {t : Act σ α} (ht : Keeps sweeps .away t) (hw : w.pool.tableLock = {}) :
    (t.run w).2.pool.tableLock = {} :=
  (ht.lock_eq (congrArg LockState.hasWriter hw)).trans hw

theorem act_keeps (hc : company.Civil) {r : Routine σ} (hr : r.isDrain = false) :
    Keeps true .away (r.act company) := by
  cases r with
  | serve program => exact Keeps.bind (interpret_keeps hc program) fun _ => keeps_pure _
  | slip a m =>
    refine Keeps.bind pool_keeps fun p => ?_
    split
    · exact Grips.bind (grips_atom (x := .put _ m) rfl fun _ => rfl) fun _ _ hg => hg
    · exact keeps_pure _
  | sweep worker limit =>
    exact Keeps.bind (sweepWithin_keeps hc worker limit) fun _ => keeps_pure _
  | drain a | drainUnlocked a => cases hr

theorem lock_of_routines (hc : company.Civil) {rs : List (Routine σ)}
    (hrs : ∀ r ∈ rs, r.isDrain = false) (hw : w.pool.tableLock = {}) :
    ((Routine.all company rs).run w).2.pool.tableLock = {} := by
  induction rs generalizing w with
  | nil => exact hw
  | cons r rs ih =>
    rw [Routine.all, run_bind]
    exact ih (fun r hr => hrs r (List.mem_cons_of_mem _ hr))
      (Keeps.lock (act_keeps hc (hrs r List.mem_cons_self)) hw)

end Act

end ActorSystem
