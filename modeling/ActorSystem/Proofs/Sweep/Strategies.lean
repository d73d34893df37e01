import ActorSystem.Proofs.Courier
import ActorSystem.Proofs.Sweep.Alike
import ActorSystem.Proofs.Sweep.Lock

/-!
# The two strategies

If the roles register nobody, the two kinds of sweep come to the same. Turn by turn they are in
worlds that are alike: what the handoff sweep has erased already is what the deferred sweep will
erase at its end.

* `visitSlots_inStep`: a walk along the table beside a row of drains.
* `strategies_agree`: a whole sweep of either kind.
-/

namespace ActorSystem

variable {σ : Signature} {config : Config} {company : Company σ} {table gone rest : List ActorRef}
variable {u v w : World σ} {a : ActorRef} {o : Outcome} {worker worker' fuel n : Nat}

/-! ## Between two turns -/

theorem cue_of_between {e : Visit σ} (he : e.atom.between) : e.cue = none := by
  obtain ⟨w, x⟩ := e
  cases x <;> first | rfl | cases he

theorem erase_gone (hnodup : table.Nodup) (a : ActorRef) (gone : List ActorRef) :
    (table.filter (· ∉ gone)).erase a = table.filter (· ∉ a :: gone) := by
  rw [(hnodup.filter _).erase_eq_filter, List.filter_filter]
  refine List.filter_congr fun c _ => ?_
  by_cases hca : c = a <;> simp [hca]

/-- As long as the table stays as it is, nobody is registered. -/
theorem Pool.Since.size_eq {p q : Pool σ} (h : Since a p q) (htable : q.table = p.table) :
    q.actors.size = p.actors.size := by
  have hnone : p.newcomers q = [] := List.append_right_eq_self.mp (h.table.symm.trans htable)
  have hcount : q.actors.size - p.actors.size = 0 := List.range'_eq_nil_iff.mp hnone
  have hgrown := h.grown
  omega

namespace Alike

theorem table_eq (h : Alike table gone u v) : v.pool.table = table.filter (· ∉ gone) := by
  obtain ⟨lock, log, rfl⟩ := h.rest
  rfl

theorem erase (h : Alike table gone u v) (hnodup : table.Nodup)
    (ha : u.pool.phaseOf a = some .sick) (worker : Nat) :
    Alike table (a :: gone) u ((Act.removeActor worker a).run v).2 := by
  obtain ⟨lock, log, rfl⟩ := h.rest
  refine ⟨h.full, ?_, List.forall_mem_cons.mpr ⟨ha, h.stopped⟩⟩
  rw [← erase_gone hnodup a gone]
  exact ⟨_, _, rfl⟩

end Alike

namespace Act

/-- After a turn, only an actor that stopped is treated differently. -/
theorem nextSlot_alike (h : Alike table gone u v) (hnodup : table.Nodup)
    (ha : o = .poisoned → u.pool.phaseOf a = some .sick) (worker worker' n : Nat) :
    Alike table (if o = .poisoned then a :: gone else gone) ((afterTurn worker a o).run u).2
      ((nextSlot worker' n a o).run v).2 := by
  cases o with
  | poisoned => exact h.erase hnodup (ha rfl) worker'
  | error =>
    have hreport : Matches table gone (reportError worker a : Act σ Unit) (reportError worker' a) :=
      Matches.pool fun _ _ _ => report_matches _ _
    exact (hreport u v h).2.1
  | skipped | complete => exact h

/-! ## Walking and draining -/

/-- A walk of at most `fuel` visits along the table of `v` from slot `n` on comes to its end, and to
the same as drains of the actors `rest` in `u`. -/
structure InStep (company : Company σ) (table gone : List ActorRef) (worker worker' fuel n : Nat)
    (rest : List ActorRef) (u v : World σ) : Prop where
  ended : ((visitSlots company worker' fuel n).run v).1 = true
  alike : ∃ gone', Alike table gone' ((drainAll company worker rest).run u).2
      ((visitSlots company worker' fuel n).run v).2 ∧
    (((drainAll company worker rest).run u).1 = 0 → gone' = gone)
  cues : ((visitSlots company worker' fuel n).visits v).filterMap Visit.cue =
    ((drainAll company worker rest).visits u).filterMap Visit.cue
  /-- Nobody is registered. -/
  size : ((visitSlots company worker' fuel n).run v).2.pool.actors.size = v.pool.actors.size

namespace InStep

theorem nil (h : Alike table gone u v) (hend : v.pool.table[n]? = none) :
    InStep company table gone worker worker' (fuel + 1) n [] u v := by
  obtain ⟨hrun, hvisits⟩ := visitSlot_none company hend worker'
  have hslots : (visitSlots company worker' (fuel + 1) n).run v = (true, v) := by
    rw [visitSlots, run_bind, hrun]
    rfl
  refine ⟨by rw [hslots], ⟨gone, ?_, fun _ => rfl⟩, ?_, by rw [hslots]⟩
  · rw [hslots]
    exact h
  · rw [visitSlots, visits_bind, hrun, hvisits]
    rfl

/-- One turn of either kind, and the rest of the way. -/
theorem cons {m : Nat} {u' v' : World σ} (hslot : v.pool.table[n]? = some a)
    (hu : (turn company .deferred a).run u = (o, u'))
    (hv : (turn company .handoff a).run v = (o, v'))
    (hcues : ((turn company .handoff a).visits v).filterMap Visit.cue =
      ((turn company .deferred a).visits u).filterMap Visit.cue)
    (hsize : v'.pool.actors.size = v.pool.actors.size)
    (hm : ((nextSlot worker' n a o).run v').1 = some m)
    (h : InStep company table (if o = .poisoned then a :: gone else gone) worker worker' fuel m rest
      ((afterTurn worker a o).run u').2 ((nextSlot worker' n a o).run v').2) :
    InStep company table gone worker worker' (fuel + 1) n (a :: rest) u v := by
  obtain ⟨hrun, hvisits⟩ := visitSlot_some company hslot worker'
  have hslots : (visitSlots company worker' (fuel + 1) n).run v =
      (visitSlots company worker' fuel m).run ((nextSlot worker' n a o).run v').2 := by
    rw [visitSlots, run_bind, hrun, run_bind, hv, hm]
  obtain ⟨hdrained, hcount⟩ := countStopped_run company worker a rest o u'
  obtain ⟨gone', halike, hzero⟩ := h.alike
  refine ⟨?_, ⟨gone', ?_, fun hnone => ?_⟩, ?_, ?_⟩
  · rw [hslots]
    exact h.ended
  · rw [drainAll_cons, run_bind, hu, hdrained, hslots]
    exact halike
  · rw [drainAll_cons, run_bind, hu] at hnone
    obtain ⟨ho, hrest⟩ := hcount hnone
    rw [hzero hrest, if_neg ho]
  · have hbefore := filterMap_eq_nil_of_all (afterTurn_between (σ := σ) worker a o)
      (fun _ => cue_of_between) u'
    have hafter := filterMap_eq_nil_of_all (nextSlot_between (σ := σ) worker' n a o)
      (fun _ => cue_of_between) v'
    have hlook : (⟨v, .slot n⟩ : Visit σ).cue = none := rfl
    rw [drainAll_cons, visits_bind, hu, countStopped_visits, visitSlots, visits_bind, hrun, hvisits,
      visits_bind, run_bind, hv, hm]
    simp only [List.cons_append, List.filterMap_cons, hlook, List.filterMap_append, hbefore, hafter,
      hcues, h.cues, List.append_nil, List.nil_append]
  · rw [hslots, h.size, actors_of_between (nextSlot_between worker' n a o), hsize]

end InStep

/-- A walk with enough fuel keeps step with the drains of the actors that lie ahead. -/
theorem visitSlots_inStep (hc : company.Civil)
    (hroles : ∀ role ctx m, (company.behaviour.handle role ctx m).All company.Modest)
    (hnodup : table.Nodup) (h : Alike table gone u v) (hu : Between config u)
    (hv : Solo config v (.rest true)) (hrest : v.pool.table.drop n = rest)
    (hfuel : rest.length < fuel) :
    InStep company table gone worker worker' fuel n rest u v := by
  induction rest generalizing u v gone fuel n with
  | nil =>
    obtain ⟨fuel, rfl⟩ := Nat.exists_eq_add_one_of_ne_zero (Nat.ne_of_gt hfuel)
    exact .nil h (List.getElem?_eq_none_iff.mpr (List.drop_eq_nil_iff.mp hrest))
  | cons a rest ih =>
    obtain ⟨fuel, rfl⟩ := Nat.exists_eq_add_one_of_ne_zero (Nat.ne_of_gt (Nat.zero_lt_of_lt hfuel))
    have hslot : v.pool.table[n]? = some a := by
      rw [← List.head?_drop, hrest]
      rfl
    have hgone : a ∉ gone := by
      have hin := List.mem_of_getElem? hslot
      rw [h.table_eq, List.mem_filter] at hin
      exact of_decide_eq_true hin.2
    obtain ⟨hsame, halike, hcues⟩ := turn_matches hroles hgone u v h
    have hstops := turn_stops hc .deferred a hu
    have hturned := hu.turn hc .deferred a
    have hsince := since (turn_handles hc .handoff a) v
    obtain ⟨s, rfl, hsolo⟩ := (visitSlot_obeys hc worker' n).run hv
    rw [(visitSlot_some company hslot worker').1, run_bind] at hsolo
    cases hd : (turn company .deferred a).run u with | mk o u' => ?_
    cases hw : (turn company .handoff a).run v with | mk o' v' => ?_
    rw [hd] at hsame halike hstops hturned
    rw [hw] at hsame halike hsince hsolo
    obtain rfl : o' = o := hsame
    have htable : v'.pool.table = v.pool.table := halike.table_eq.trans h.table_eq.symm
    have hsize := hsince.size_eq htable
    have hnodup' : v'.pool.table.Nodup := by
      rw [halike.table_eq]
      exact hnodup.filter _
    have hahead : v.pool.table.drop (n + 1) = rest := by
      rw [← List.tail_drop, hrest, List.tail_cons]
    obtain ⟨m, hm, -, hdrop⟩ := nextSlot_drop worker' o' hnodup' (htable ▸ hslot)
    refine .cons hslot hd hw hcues hsize hm ?_
    refine ih (nextSlot_alike halike hnodup hstops worker worker' n) (hturned.afterTurn worker a o')
      hsolo ?_ (Nat.lt_of_succ_lt_succ hfuel)
    rw [hdrop, htable, hahead]

/-- At its end the deferred sweep erases whoever the handoff sweep has erased by then, and the two
tables are the same. -/
theorem clearUp_run (h : Alike table gone u v)
    (hsane : ∀ c ∈ v.pool.table, u.pool.phaseOf c ≠ some .sick) {k : Nat}
    (hnone : k = 0 → gone = []) (worker : Nat) :
    ∃ lock log, ((clearUp worker k).run u).2 = u.retabled v.pool.table lock log := by
  have htable : v.pool.table = if k = 0 then u.pool.table
      else u.pool.table.filter fun c => !u.pool.isSick c := by
    rw [h.full, h.table_eq]
    split
    · rename_i hk
      rw [hnone hk]
      simp
    · refine List.filter_congr fun c hc => ?_
      by_cases hgone : c ∈ gone
      · have hsick : u.pool.isSick c := Pool.isSick_iff.mpr (h.stopped c hgone)
        simp [hgone, hsick]
      · have hstays : c ∈ v.pool.table := by
          rw [h.table_eq, List.mem_filter]
          exact ⟨hc, decide_eq_true hgone⟩
        have hwell : u.pool.isSick c = false :=
          Bool.eq_false_iff.mpr fun hsick => hsane c hstays (Pool.isSick_iff.mp hsick)
        simp [hgone, hwell]
  rw [htable, clearUp]
  by_cases hk : k = 0
  · rw [if_pos hk, if_neg (not_not_intro hk)]
    exact ⟨u.pool.tableLock, u.log, rfl⟩
  · rw [if_neg hk, if_pos hk]
    exact ⟨_, _, rfl⟩

/-! ## Two sweeps -/

theorem sweepHandoff_eq (company : Company σ) (worker : Nat) (w : World σ) :
    (sweepHandoff company worker).run w = (walk company worker (visitLimit w.pool)).run w ∧
      (sweepHandoff company worker).visits w =
        ⟨w, .look⟩ :: (walk company worker (visitLimit w.pool)).visits w := by
  have hlook : (pool : Act σ (Pool σ)).run w = (w.pool, w) ∧
      (pool : Act σ (Pool σ)).visits w = [⟨w, .look⟩] := ⟨rfl, rfl⟩
  rw [sweepHandoff, run_bind, visits_bind, hlook.1, hlook.2]
  exact ⟨rfl, rfl⟩

theorem walk_run (company : Company σ) (worker limit : Nat) (w : World σ) :
    ((walk company worker limit).run w).2 = (Atom.lock .leaveRead).effect
      ((visitSlots company worker limit 0).run ((Atom.lock .enterRead).effect w)).2 := by
  rw [walk, run_bind, run_bind]
  rfl

theorem sweepDeferred_cues (company : Company σ) (worker : Nat) (w : World σ) :
    ((sweepDeferred company worker).visits w).filterMap Visit.cue =
      ((drainAll company worker w.pool.table).visits (snapshot.run w).2).filterMap Visit.cue := by
  have hfirst := filterMap_eq_nil_of_all (snapshot_between (σ := σ)) (fun _ => cue_of_between) w
  have hlast := fun k => filterMap_eq_nil_of_all (clearUp_between (σ := σ) worker k)
    (fun _ => cue_of_between)
  rw [sweepDeferred_eq, visits_bind, visits_bind, List.filterMap_append, List.filterMap_append,
    hfirst, hlast, List.append_nil, List.nil_append]
  rfl

theorem walk_cues (company : Company σ) (worker limit : Nat) (w : World σ) :
    ((walk company worker limit).visits w).filterMap Visit.cue =
      ((visitSlots company worker limit 0).visits
        ((Atom.lock .enterRead).effect w)).filterMap Visit.cue := by
  have hlock : ∀ op u, (((lockTable op : Act σ Unit).visits u).filterMap Visit.cue) = [] :=
    fun _ _ => rfl
  rw [walk, visits_bind, visits_bind, List.filterMap_append, List.filterMap_append, hlock, hlock,
    List.append_nil, List.nil_append]
  rfl

end Act

open Act

/-- The two sweeps side by side: in their last worlds the tables are the same, and but for the locks
and logs all else is as in a third world. -/
theorem Solo.sweeps_alike (hc : company.Civil)
    (hroles : ∀ role ctx m, (company.behaviour.handle role ctx m).All company.Modest)
    (h : Solo config w (.rest false)) (worker worker' : Nat) {limit : Nat}
    (hlimit : w.pool.table.length < limit) :
    ∃ (u : World σ) (table : List ActorRef),
      (∃ lock log, ((sweepDeferred company worker).run w).2 = u.retabled table lock log) ∧
      (∃ lock log, ((walk company worker' limit).run w).2 = u.retabled table lock log) ∧
      walkEnds company worker' limit w ∧
      ((walk company worker' limit).run w).2.pool.actors.size = w.pool.actors.size ∧
      ((walk company worker' limit).visits w).filterMap Visit.cue =
        ((sweepDeferred company worker).visits w).filterMap Visit.cue := by
  obtain ⟨s, rfl, hu⟩ := snapshot_obeys.run (h.settled true)
  have hv := h.entered
  have hstart : Alike w.pool.table [] ((snapshot : Act σ _).run w).2
      ((Atom.lock .enterRead).effect w) := by
    refine ⟨rfl, ⟨w.pool.tableLock.after .enterRead, w.log, ?_⟩, nofun⟩
    simp only [List.not_mem_nil, not_false_eq_true, decide_true, List.filter_true]
    rfl
  have hwalk : InStep company w.pool.table [] worker worker' limit 0 w.pool.table
      ((snapshot : Act σ _).run w).2 ((Atom.lock .enterRead).effect w) :=
    visitSlots_inStep hc hroles h.kept.nodup hstart ⟨[], hu⟩ hv rfl hlimit
  obtain ⟨s, rfl, hend⟩ := (visitSlots_obeys hc worker' limit 0).run hv
  obtain ⟨gone, halike, hnone⟩ := hwalk.alike
  have hlast := walk_run company worker' limit w
  have hsize := hwalk.size
  have hdrained : ((sweepDeferred company worker).run w).2 =
      ((clearUp worker ((drainAll company worker w.pool.table).run (snapshot.run w).2).1).run
        ((drainAll company worker w.pool.table).run (snapshot.run w).2).2).2 := by
    rw [sweepDeferred_eq, run_bind, run_bind]
    rfl
  have hcues := hwalk.cues
  rw [← sweepDeferred_cues, ← walk_cues] at hcues
  have hcleared := clearUp_run halike ?_ hnone worker
  · rw [← hdrained] at hcleared
    refine ⟨_, _, hcleared, ?_, hwalk.ended, ?_, hcues⟩
    · obtain ⟨lock, log, hrest⟩ := halike.rest
      rw [hlast, hrest]
      exact ⟨_, _, rfl⟩
    · rw [hlast]
      exact hsize
  · intro c hin hsick
    obtain ⟨lock, log, hrest⟩ := halike.rest
    refine hend.not_sick_of_mem hin ?_
    rw [hrest]
    exact hsick

/-- The two kinds of sweep, in the same world, come to the same. -/
structure Agree (company : Company σ) (worker worker' : Nat) (w : World σ) : Prop where
  /-- The handoff sweep sees the end of the table. -/
  ended : walkEnds company worker' (visitLimit w.pool) w
  pool : ((sweepHandoff company worker').run w).2.pool =
    ((sweepDeferred company worker).run w).2.pool
  env : ((sweepHandoff company worker').run w).2.env = ((sweepDeferred company worker).run w).2.env
  /-- The same roles get the same messages in the same order, and know the same of themselves. -/
  cues : ((sweepHandoff company worker').visits w).filterMap Visit.cue =
    ((sweepDeferred company worker).visits w).filterMap Visit.cue
  /-- Every actor of the table is drained once, in the order of the table. -/
  deferred : ((sweepDeferred company worker).visits w).filterMap Visit.drained = w.pool.table
  handoff : ((sweepHandoff company worker').visits w).filterMap Visit.drained = w.pool.table

/-- After any routines of a single worker, whoever the roles post to or unregister and however they
end, as long as they register nobody and what they do outside has no part in the pool. -/
theorem strategies_agree (company : Company σ) (hc : company.Civil)
    (hroles : ∀ role ctx m, (company.behaviour.handle role ctx m).All company.Modest)
    (config : Config) (env : σ.Env) (rs : List (Routine σ)) (hrs : ∀ r ∈ rs, r.isDrain = false)
    (w : World σ) (hw : ((Routine.all company rs).run (.empty config env)).2 = w)
    (worker worker' : Nat) : Agree company worker worker' w := by
  have hsolo : Solo config w (.rest false) := hw ▸ (Solo.empty config env).all hc hrs
  have hlock : w.pool.tableLock = {} := hw ▸ lock_of_routines hc hrs rfl
  have hlimit : w.pool.table.length < visitLimit w.pool := by
    rw [visitLimit]
    omega
  obtain ⟨hrun, hvisits⟩ := sweepHandoff_eq company worker' w
  have hdrained := (sweepDeferred_rounds hc worker hsolo).drained hc
  obtain ⟨turns, rest, hrounds, hturns⟩ := walk_rounds hc worker' (visitLimit w.pool) hsolo
  have hdrained' := hrounds.drained hc
  have hfree := Keeps.lock (sweepDeferred_keeps hc worker) hlock
  have hfree' := Keeps.lock (walk_keeps hc worker' (visitLimit w.pool)) hlock
  obtain ⟨u, table, ⟨lock, log, hdeferred⟩, ⟨lock', log', hwalk⟩, hended, hsize, hcues⟩ :=
    hsolo.sweeps_alike hc hroles worker worker' hlimit
  rw [hdeferred] at hfree
  rw [hwalk] at hfree'
  obtain rfl : lock = {} := hfree
  obtain rfl : lock' = {} := hfree'
  refine ⟨hended, ?_, ?_, ?_, hdrained, ?_⟩
  · rw [hrun, hdeferred, hwalk]
    rfl
  · rw [hrun, hdeferred, hwalk]
    rfl
  · have hlook : (⟨w, .look⟩ : Visit σ).cue = none := rfl
    rw [hvisits, List.filterMap_cons, hlook, hcues]
  · have horder := hturns.order
    rw [hturns.all hended, Pool.newcomers_eq_nil hsize, List.append_nil, List.append_nil,
      List.drop_zero] at horder
    have hlook : (⟨w, .look⟩ : Visit σ).drained = none := rfl
    rw [hvisits, List.filterMap_cons, hlook, hdrained', horder]

/-- One of the couriers stops, and the others pass their letters on. -/
theorem couriers_agree :
    (Courier.worldOf {}).pool.table = [0, 1, 2] ∧
      ((sweepDeferred Courier.company 0).run (Courier.worldOf {})).2.pool.table = [0, 2] ∧
      Agree Courier.company 0 0 (Courier.worldOf {}) := by
  refine ⟨by decide +kernel, by decide +kernel, ?_⟩
  refine strategies_agree Courier.company nofun ?_ {} () Courier.errands
    Courier.errands_drain_nothing _ rfl 0 0
  intro role ctx m
  change (Courier.handle ctx m).All _
  unfold Courier.handle
  split
  · exact ⟨trivial, fun _ => trivial⟩
  · trivial
  · trivial

end ActorSystem
