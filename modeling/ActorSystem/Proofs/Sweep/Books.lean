import ActorSystem.Proofs.Crew.Mail
import ActorSystem.Proofs.Sweep.Rounds

/-!
# The mail of an actor during a sweep

Only in its own turn does an actor get any of its mail, and if it does not stop there, then it gets
all that it had when its turn began. What is sent to it goes to the end of its mailbox at any time.

* `Rounds.balance`: what an actor had and was sent is what it took and what it has left.
* `Rounds.untouched`: nothing is taken for an actor that has no turn.
* `turn_books`: a turn that does not stop the actor.
-/

namespace ActorSystem

variable {σ : Signature} {α : Type} {config : Config} {company : Company σ} {w w' : World σ}
variable {a : ActorRef} {b : BoxRef} {strategy : SweepStrategy} {s : Stage σ}

/-! ## Letters and mail -/

theorem filterMap_snoc {β γ : Type} (f : β → Option γ) (xs : List β) (x : β) :
    (xs ++ [x]).filterMap f = xs.filterMap f ++ (f x).toList := by
  rw [List.filterMap_append]
  cases hx : f x <;> simp [hx]

theorem Solo.balance {t : Act σ α} {Q : α → Stage σ → Prop} (ht : Obeys config s t Q)
    (hw : Solo config w s) (hb : w.pool.boxOf a = some b) :
    (t.run w).2.pool.boxOf a = some b ∧
      (t.visits w).filterMap (·.taken a) ++ (t.run w).2.pool.mailOf a =
        w.pool.mailOf a ++ (t.visits w).filterMap (·.letter b) := by
  have hall := ht.induction (h := []) (P := fun h u _ => u.pool.boxOf a = some b ∧
    h.filterMap (·.taken a) ++ u.pool.mailOf a = w.pool.mailOf a ++ h.filterMap (·.letter b)) ?_ hw
    ⟨hb, by simp⟩
  · obtain ⟨-, -, -, hbalance⟩ := hall
    exact hbalance
  intro h u s x hu hx hbalance
  obtain ⟨hbox, hmail⟩ := hbalance
  refine ⟨boxOf_effect_of_some (i := 0) (s := only s) hx hbox, ?_⟩
  rw [filterMap_snoc, filterMap_snoc, List.append_assoc,
    mailOf_balance (i := 0) hu.housed hx hbox, ← List.append_assoc, hmail, List.append_assoc]

theorem Rounds.balance (hc : company.Civil) {turns : List ActorRef} {h : List (Visit σ)}
    (hr : Rounds config company strategy w turns h w') (hb : w.pool.boxOf a = some b) :
    w'.pool.boxOf a = some b ∧ h.filterMap (·.taken a) ++ w'.pool.mailOf a =
      w.pool.mailOf a ++ h.filterMap (·.letter b) := by
  induction hr with
  | rest w => exact ⟨hb, by simp⟩
  | @pass w w' x turns h hx next ih =>
    have hbox : (x.effect w).pool.boxOf a = some b := by
      cases x <;> first | exact hb | cases hx
    have hmail : (x.effect w).pool.mailOf a = w.pool.mailOf a := by
      cases x <;> first | rfl | cases hx
    have htaken : (⟨w, x⟩ : Visit σ).taken a = none := by
      cases x <;> first | rfl | cases hx
    have hletter : (⟨w, x⟩ : Visit σ).letter b = none := by
      cases x <;> first | rfl | cases hx
    simp only [List.filterMap_cons, htaken, hletter, ← hmail]
    exact ih hbox
  | @turn w w' c turns h hw idle next ih =>
    obtain ⟨debt, hsolo⟩ := hw
    obtain ⟨hbox, hturn⟩ := hsolo.balance (Act.turn_obeys hc strategy rfl rfl rfl c) hb
    obtain ⟨hbox', hrest⟩ := ih hbox
    refine ⟨hbox', ?_⟩
    rw [List.filterMap_append, List.filterMap_append, List.append_assoc, hrest,
      ← List.append_assoc, hturn, List.append_assoc]

/-! ## Who has no turn -/

/-- The access takes a message out of a mailbox or hands one to a role. -/
def Atom.reads : Atom σ → Bool
  | takeMail _ | dispatch .. => true
  | _ => false

theorem Visit.untouched_of_not_reads {v : Visit σ} (hv : v.atom.reads = false) (a : ActorRef) :
    v.taken a = none ∧ v.consumed a = none := by
  obtain ⟨w, x⟩ := v
  cases x <;> first | exact ⟨rfl, rfl⟩ | cases hv

theorem Visit.untouched_of_handles {v : Visit σ} {c : ActorRef} (hv : v.atom.handles c)
    (hca : c ≠ a) : v.taken a = none ∧ v.consumed a = none := by
  obtain ⟨w, x⟩ := v
  cases x with
  | takeMail d =>
    have hd : d ≠ a := by
      have hdc : d = c := of_decide_eq_true hv
      rwa [hdc]
    exact ⟨if_neg hd, if_neg hd⟩
  | dispatch d m =>
    have hd : d ≠ a := by
      have hdc : d = c := of_decide_eq_true hv
      rwa [hdc]
    exact ⟨rfl, if_neg hd⟩
  | _ => exact ⟨rfl, rfl⟩

/-- Whoever has no turn keeps its phase, and nothing is done with its mail. -/
theorem Rounds.untouched (hc : company.Civil) {turns : List ActorRef} {h : List (Visit σ)}
    (hr : Rounds config company strategy w turns h w') (ha : a ∉ turns)
    (hborn : a < w.pool.actors.size) :
    w'.pool.phaseOf a = w.pool.phaseOf a ∧ h.filterMap (·.taken a) = [] ∧
      h.filterMap (·.consumed a) = [] := by
  induction hr with
  | rest w => exact ⟨rfl, rfl, rfl⟩
  | @pass w w' x turns h hx next ih =>
    have hactors : (x.effect w).pool.actors = w.pool.actors := by
      rw [Atom.actors_effect]
      cases x <;> first | rfl | cases hx
    have hphase : (x.effect w).pool.phaseOf a = w.pool.phaseOf a := by
      rw [Pool.phaseOf, Pool.actor?, hactors]
      rfl
    have hreads : x.reads = false := by
      cases x <;> first | rfl | cases hx
    obtain ⟨htaken, hconsumed⟩ := Visit.untouched_of_not_reads (v := ⟨w, x⟩) hreads a
    simp only [List.filterMap_cons, htaken, hconsumed, ← hphase]
    exact ih ha (by rwa [hactors])
  | @turn w w' c turns h hw idle next ih =>
    have hca : a ≠ c := fun hca => ha (hca ▸ List.mem_cons_self)
    have hlater : a ∉ turns := fun hin => ha (List.mem_cons_of_mem c hin)
    have hhandles := Act.turn_handles hc strategy c
    have hsince := Act.since hhandles w
    have htaken := Act.filterMap_eq_nil_of_all hhandles
      (fun v hv => (Visit.untouched_of_handles hv hca.symm).1) w
    have hconsumed := Act.filterMap_eq_nil_of_all hhandles
      (fun v hv => (Visit.untouched_of_handles hv hca.symm).2) w
    obtain ⟨hphase, htaken', hconsumed'⟩ := ih hlater (Nat.lt_of_lt_of_le hborn hsince.grown)
    refine ⟨hphase.trans (hsince.others a hborn hca), ?_, ?_⟩
    · rw [List.filterMap_append, htaken, htaken', List.nil_append]
    · rw [List.filterMap_append, hconsumed, hconsumed', List.nil_append]

/-! ## One's own turn -/

namespace Act

theorem interpret_reads (hc : company.Civil) (program : Program σ α) :
    (interpret company program).All (·.reads = false) := by
  refine (interpret_asked hc program).mono fun x hx => ?_
  cases x <;> first | rfl | cases hx

theorem reads_of_minds {x : Atom σ} (hx : x.minds a) : x.reads = false := by
  cases x <;> first | rfl | cases hx

theorem untouched_of_not_reads {t : Act σ α} (ht : t.All (·.reads = false)) (w : World σ) :
    (t.visits w).filterMap (·.taken a) = [] ∧ (t.visits w).filterMap (·.consumed a) = [] := by
  refine ⟨filterMap_eq_nil_of_all ht (fun v hv => ?_) w, filterMap_eq_nil_of_all ht
    (fun v hv => ?_) w⟩
  · exact (Visit.untouched_of_not_reads hv a).1
  · exact (Visit.untouched_of_not_reads hv a).2

/-- A message that has been taken is consumed: there and then if it is a control message, else
when the role gets it. -/
theorem handleMail_books (hc : company.Civil) (m : Message σ.Value) (w : World σ) :
    ((handleMail company a m).visits w).filterMap (·.taken a) = [] ∧
      ((handleMail company a m).visits w).filterMap (·.consumed a) =
        if m.isControl then [] else [m] := by
  obtain ⟨source, body⟩ := m
  cases body with
  | user value =>
    change ((dispatch company a ⟨source, .user value⟩).visits w).filterMap _ = _ ∧
      ((dispatch company a ⟨source, .user value⟩).visits w).filterMap _ = _
    have hrole : ∀ role ctx m, (interpret company (company.behaviour.handle role ctx m)).All
      (·.reads = false) := fun role ctx m => interpret_reads hc _
    have hafter := fun found => untouched_of_not_reads (a := a) (afterDispatch_all (a := a) hrole
      (fun _ hx => reads_of_minds hx) found ⟨source, .user value⟩) w
    rw [dispatch_eq]
    refine ⟨(hafter _).1, ?_⟩
    have hdispatch : (⟨w, .dispatch a ⟨source, .user value⟩⟩ : Visit σ).consumed a =
      some ⟨source, .user value⟩ := if_pos rfl
    simp only [Act.visits, List.filterMap_cons, hdispatch]
    exact congrArg (_ :: ·) (hafter _).2
  | control c =>
    refine untouched_of_not_reads ?_ w
    cases c with
    | poison => trivial
    | setName name => exact ⟨rfl, fun _ => trivial⟩
    | setId id =>
      have hchange : (changeId (σ := σ) a id).All (·.reads = false) :=
        changeId_all (fun _ hx => reads_of_minds hx) id
      exact Dialogue.all_bind hchange fun _ => trivial

/-- There is mail as long as the batch is not over. -/
theorem head?_of_batch {size k : Nat} (hw : Solo config w s) (ht : s.turn = .batch a size k)
    (hk : k < size) : ∃ m, (w.pool.mailOf a).head? = some m := by
  have hactor : s.turn.actor? = some a := by rw [ht]; rfl
  have hstock : s.turn.left ≤ (w.pool.mailOf a).length := hw.taken.stocked 0 a hactor
  have hleft : s.turn.left = size - k := by rw [ht]; rfl
  cases hmail : w.pool.mailOf a with
  | nil =>
    rw [hmail, List.length_nil, hleft] at hstock
    omega
  | cons m rest => exact ⟨m, rfl⟩

theorem turn_takeMail {size k : Nat} {m : Message σ.Value} (ht : s.turn = .batch a size k)
    (hm : (w.pool.mailOf a).head? = some m) :
    (s.visit ⟨w, .takeMail a⟩).turn =
      if m.isControl then .batch a size (k + 1) else .holding a size (k + 1) m := by
  rw [Stage.visit, Stage.after, ht]
  simp only [Atom.answer, hm, Turn.after]

theorem afterMail_of_ne {n : Nat} {sum o : Outcome} (ho : o ≠ .poisoned) :
    afterMail company a n sum o = (do
      consume company a n ((← pool).config.batchPolicy.fold sum o)) := by
  cases o with
  | poisoned => exact absurd rfl ho
  | skipped | complete | error => rfl

/-- A batch that does not stop the actor takes as many messages as it is to take. -/
theorem consume_books (hc : company.Civil) {size k n : Nat} {sum o : Outcome}
    (hs : s.desk = .away) (ht : s.turn = .batch a size k) (hn : n + k = size)
    (hw : Solo config w s) (ho : ((consume company a n sum).run w).1 = some o) :
    (((consume company a n sum).visits w).filterMap (·.taken a)).length = n ∧
      ((consume company a n sum).visits w).filterMap (·.consumed a) =
        ((consume company a n sum).visits w).filterMap (·.taken a) := by
  induction n generalizing w s k sum with
  | zero => exact ⟨rfl, rfl⟩
  | succ n ih =>
    have hallows : s.Allows config.maxActors (.takeMail a) :=
      ⟨⟨size, k, ht, by omega⟩, trivial, nofun, nofun⟩
    have hdesk : (s.visit ⟨w, .takeMail a⟩).desk = .away := by
      rw [Stage.visit, Stage.after, hs]
      rfl
    obtain ⟨m, hhead⟩ := head?_of_batch hw ht (by omega)
    obtain ⟨s', hs', hnext⟩ := (handleMail_obeys hc hdesk
      (turn_takeMail ht hhead)).run (hw.visited hallows)
    have hdesk' : s'.desk = .away := by rw [hs', hdesk]
    have hturn' : s'.turn = .batch a size (k + 1) := by rw [hs']
    obtain ⟨htaken, hconsumed⟩ := handleMail_books (a := a) hc m ((Atom.takeMail a).effect w)
    rw [consume_succ] at ho ⊢
    simp only [Act.run, Act.visits, Atom.answer, hhead] at ho ⊢
    cases hout : (handleMail company a m).run ((Atom.takeMail a).effect w) with | mk r u => ?_
    rw [hout] at hnext
    rw [run_bind, hout] at ho
    rw [visits_bind, hout]
    by_cases hr : r = .poisoned
    · simp [hr, afterMail] at ho
    rw [afterMail_of_ne hr] at ho ⊢
    obtain ⟨hlength, hsame⟩ := ih hdesk' hturn' (by omega) hnext ho
    have hfirst : (⟨w, .takeMail a⟩ : Visit σ).taken a = some m := by
      simp [Visit.taken, hhead]
    have hobeyed : (⟨w, .takeMail a⟩ : Visit σ).consumed a =
        if m.isControl then some m else none := by
      simp [Visit.consumed, hhead, Option.filter]
    have hvisits : (do consume company a n ((← pool).config.batchPolicy.fold sum r)).visits u =
        ⟨u, .look⟩ :: (consume company a n (u.pool.config.batchPolicy.fold sum r)).visits u := rfl
    have hlook := Visit.untouched_of_not_reads (v := ⟨u, .look⟩) rfl a
    rw [hvisits]
    simp only [List.filterMap_cons, List.filterMap_append, hfirst, hobeyed, htaken, hconsumed,
      hlook.1, hlook.2, List.nil_append, List.length_cons]
    refine ⟨congrArg (· + 1) hlength, ?_⟩
    cases m.isControl <;> exact congrArg (m :: ·) hsame

theorem drain_of_no_mail (company : Company σ) (hmail : (w.pool.mailOf a).length = 0) :
    (drain company a).run w = (.skipped, w) ∧
      (drain company a).visits w = [⟨w, .countMail a⟩] := by
  rw [drain_eq]
  change Act.run (if (w.pool.mailOf a).length = 0 then _ else _) w = _ ∧
    ⟨w, .countMail a⟩ :: Act.visits (if (w.pool.mailOf a).length = 0 then _ else _) w = _
  rw [if_pos hmail]
  exact ⟨rfl, rfl⟩

theorem drain_of_mail (company : Company σ) (hmail : (w.pool.mailOf a).length ≠ 0) :
    (drain company a).run w = (consume company a (w.pool.mailOf a).length .complete >>=
        afterBatch a (w.pool.mailOf a).length).run w ∧
      (drain company a).visits w = ⟨w, .countMail a⟩ ::
        (consume company a (w.pool.mailOf a).length .complete >>=
          afterBatch a (w.pool.mailOf a).length).visits w := by
  rw [drain_eq]
  change Act.run (if (w.pool.mailOf a).length = 0 then _ else _) w = _ ∧
    ⟨w, .countMail a⟩ :: Act.visits (if (w.pool.mailOf a).length = 0 then _ else _) w = _
  rw [if_neg hmail]
  exact ⟨rfl, rfl⟩

/-- A drain that does not stop the actor takes all the mail that it has counted. -/
theorem drain_books (hc : company.Civil) (hs : s.desk = .away) (ht : s.turn = .begun a)
    (hw : Solo config w s) (ho : ((drain company a).run w).1 ≠ .poisoned) :
    (((drain company a).visits w).filterMap (·.taken a)).length = (w.pool.mailOf a).length ∧
      ((drain company a).visits w).filterMap (·.consumed a) =
        ((drain company a).visits w).filterMap (·.taken a) := by
  have hallows : s.Allows config.maxActors (.countMail a) := ⟨ht, trivial, nofun, nofun⟩
  have hcounted : Solo config w (s.visit ⟨w, .countMail a⟩) := hw.visited hallows
  have hdesk : (s.visit ⟨w, .countMail a⟩).desk = .away := by
    rw [Stage.visit, Stage.after, hs]
    rfl
  have hturn : (s.visit ⟨w, .countMail a⟩).turn = .batch a (w.pool.mailOf a).length 0 := by
    rw [Stage.visit, Stage.after, ht]
    rfl
  obtain ⟨htaken, hconsumed⟩ := Visit.untouched_of_not_reads (v := ⟨w, .countMail a⟩) rfl a
  by_cases hmail : (w.pool.mailOf a).length = 0
  · obtain ⟨-, hvisits⟩ := drain_of_no_mail company hmail
    rw [hvisits, hmail]
    exact ⟨rfl, rfl⟩
  obtain ⟨hrun, hvisits⟩ := drain_of_mail company hmail
  rw [hrun, run_bind] at ho
  rw [hvisits, visits_bind]
  cases hr : ((consume company a (w.pool.mailOf a).length .complete).run w).1 with
  | none =>
    rw [hr] at ho
    exact absurd rfl ho
  | some o =>
    obtain ⟨hlength, hsame⟩ := consume_books hc hdesk hturn (Nat.add_zero _) hcounted hr
    have hlast : (afterBatch a (w.pool.mailOf a).length (some o) : Act σ Outcome).All
        (·.reads = false) := ⟨rfl, fun _ => ⟨rfl, fun _ => trivial⟩⟩
    have hnothing := fun u => untouched_of_not_reads (a := a) hlast u
    simp only [List.filterMap_cons, List.filterMap_append, htaken, hconsumed, (hnothing _).1,
      (hnothing _).2, List.append_nil]
    exact ⟨hlength, hsame⟩

/-! ## The whole turn -/

theorem stepOf_obeys (strategy : SweepStrategy) {op : LockState.Op}
    (hop : (Atom.lock op : Atom σ).neutral) :
    Obeys config s (stepOf strategy op) fun _ s' => s' = s := by
  cases strategy with
  | deferred => rfl
  | handoff => exact lockTable_obeys hop

theorem stepOf_reads (strategy : SweepStrategy) (op : LockState.Op) :
    (stepOf strategy op : Act σ Unit).All (·.reads = false) := by
  cases strategy with
  | deferred => trivial
  | handoff => exact ⟨rfl, fun _ => trivial⟩

theorem stepOf_mailOf (strategy : SweepStrategy) (op : LockState.Op) (w : World σ) :
    ((stepOf strategy op).run w).2.pool.mailOf = w.pool.mailOf := by
  cases strategy <;> rfl

/-- A turn whose actor has been taken: it takes mail in the drain only, and the last thing it does
is to let the actor go. -/
theorem afterClaim_run (company : Company σ) (strategy : SweepStrategy) (a : ActorRef)
    (w : World σ) : ∃ u v, u = ((stepOf strategy .leaveRead).run w).2 ∧
      ((afterClaim company strategy a).run w).1 = ((drain company a).run u).1 ∧
      ((afterClaim company strategy a).run w).2 =
        (Atom.finish a ((drain company a).run u).1).effect v ∧
      (∀ f : Visit σ → Option (Message σ.Value), (∀ v, v.atom.reads = false → f v = none) →
        ((afterClaim company strategy a).visits w).filterMap f =
          ((drain company a).visits u).filterMap f) := by
  refine ⟨_, ((stepOf strategy .enterRead).run ((drain company a).run
    ((stepOf strategy .leaveRead).run w).2).2).2, rfl, ?_, ?_, fun f hf => ?_⟩
  · simp only [afterClaim, run_bind, run_pure]
  · simp only [afterClaim, run_bind, run_pure]
    rfl
  · have hstep := fun op u => filterMap_eq_nil_of_all (stepOf_reads (σ := σ) strategy op) hf u
    have hfinish : ∀ o, (finish a o : Act σ Unit).All (·.reads = false) :=
      fun o => ⟨rfl, fun _ => trivial⟩
    have hlast := fun o u => filterMap_eq_nil_of_all (hfinish o) hf u
    simp only [afterClaim, visits_bind, visits_pure, List.filterMap_append, hstep, hlast,
      List.nil_append, List.append_nil]

/-- An actor that is let go is idle. -/
theorem phaseOf_finish {o : Outcome} (ho : o ≠ .poisoned)
    (hborn : (((Atom.finish a o).effect w).pool.boxOf a).isSome) :
    ((Atom.finish a o).effect w).pool.phaseOf a = some .idle := by
  have hphase := Pool.phaseOf_isSome_iff.mpr (Pool.boxOf_isSome_iff.mp hborn)
  rw [Atom.phaseOf_effect] at hphase ⊢
  simp only [ho, ne_eq, not_false_eq_true, and_self, if_true, Option.isSome_map] at hphase ⊢
  obtain ⟨p, hp⟩ := Option.isSome_iff_exists.mp hphase
  rw [hp]
  rfl

/-- A turn that does not stop the actor takes all the mail that it had when the turn began, and
leaves the actor idle. -/
theorem turn_books (hc : company.Civil) (hw : Between config w) (idle : w.pool.isIdle a)
    (hb : w.pool.boxOf a = some b)
    (ho : ((turn company strategy a).run w).1 ≠ .poisoned) :
    ((turn company strategy a).visits w).filterMap (·.consumed a) = w.pool.mailOf a ∧
      ((turn company strategy a).run w).2.pool.mailOf a =
        ((turn company strategy a).visits w).filterMap (·.letter b) ∧
      ((turn company strategy a).run w).2.pool.phaseOf a = some .idle := by
  obtain ⟨debt, hsolo⟩ := hw
  obtain ⟨hbox, hbalance⟩ := hsolo.balance (turn_obeys hc strategy rfl rfl rfl a) hb
  have hallows : Stage.Allows config.maxActors ({ drains := true, debt } : Stage σ) (.claim a) :=
    ⟨rfl, trivial, fun _ _ => rfl, nofun⟩
  have hturn : (({ drains := true, debt } : Stage σ).visit ⟨w, .claim a⟩).turn = .begun a := by
    simp only [Stage.visit, Stage.after, Atom.answer, idle, Turn.after, cond_true]
  have hneutral : (Atom.lock .leaveRead : Atom σ).neutral := rfl
  obtain ⟨s, rfl, hstepped⟩ := (stepOf_obeys strategy hneutral).run (hsolo.visited hallows)
  obtain ⟨u, v, rfl, hout, hend, hbooks⟩ :=
    afterClaim_run company strategy a ((Atom.claim a).effect w)
  have hmail : ((stepOf strategy .leaveRead).run ((Atom.claim a).effect w)).2.pool.mailOf a =
      w.pool.mailOf a := by
    rw [stepOf_mailOf]
    exact mailOf_effect (i := 0) (s := only _) hsolo.housed hallows hb
  rw [turn_run idle] at ho hbox hbalance ⊢
  rw [turn_visits idle] at hbalance ⊢
  rw [hout] at ho
  obtain ⟨hlength, hsame⟩ := drain_books hc rfl hturn hstepped ho
  rw [hmail] at hlength
  have htaken := hbooks (·.taken a) fun v hv => (Visit.untouched_of_not_reads hv a).1
  have hconsumed := hbooks (·.consumed a) fun v hv => (Visit.untouched_of_not_reads hv a).2
  obtain ⟨hclaim, hclaim'⟩ := Visit.untouched_of_not_reads (v := ⟨w, .claim a⟩) rfl a
  simp only [List.filterMap_cons, hclaim, hclaim', htaken, hconsumed, hsame] at hbalance ⊢
  -- as much was taken as there was, and it was taken from the front
  obtain ⟨hall, hleft⟩ := List.append_inj hbalance hlength
  refine ⟨hall, hleft, ?_⟩
  rw [hend] at hbox ⊢
  exact phaseOf_finish ho (by rw [hbox]; rfl)

end Act

end ActorSystem
