import ActorSystem.Proofs.Sweep.Since
import ActorSystem.Proofs.Sweep.Solo
import Mathlib.Data.List.Nodup

/-!
# The rounds of a sweep

A sweep that nobody disturbs is a row of turns: in each one an idle actor is taken, drained and let
go, and between two turns the sweep does no more than look, report, see to the lock and erase who
has stopped. `Rounds` says so of the accesses of a sweep by either strategy, with the actors that
had a turn in the order in which they had it.

* `sweepDeferred_rounds`: the actors of the snapshot have one turn each, and nobody else.
* `visitSlots_rounds`: the actors of the table have their turns first and new ones after them, until
  the end of the table is reached or the sweep is cut off.
* `Rounds.drained`: whoever has a turn is drained, and nobody else is.
-/

namespace ActorSystem

variable {σ : Signature} {config : Config} {company : Company σ} {w w' : World σ} {a : ActorRef}
variable {strategy : SweepStrategy}

/-- Between two turns of a sweep. -/
def Atom.between : Atom σ → Bool
  | look | report _ | lock _ | tableSize | snapshot | slot _ | eraseSick | erase _ => true
  | _ => false

namespace Act

/-- How a sweep steps out of the lock and back into it: the deferred sweep is outside already. -/
def stepOf : SweepStrategy → LockState.Op → Act σ Unit
  | .deferred, _ => return ()
  | .handoff, op => lockTable op

/-- One turn: a drain, unless the actor is busy or has stopped. -/
def turn (company : Company σ) (strategy : SweepStrategy) (a : ActorRef) : Act σ Outcome :=
  processUnlocked company (stepOf strategy) a

theorem turn_handles (hc : company.Civil) (strategy : SweepStrategy) (a : ActorRef) :
    (turn company strategy a).All (·.handles a) := by
  refine processUnlocked_handles hc fun op => ?_
  cases strategy with
  | deferred => trivial
  | handoff => exact ⟨rfl, fun _ => trivial⟩

theorem turn_obeys (hc : company.Civil) (strategy : SweepStrategy) {s : Stage σ} (hd : s.drains)
    (ht : s.turn = .away) (hs : s.desk = .away) (a : ActorRef) :
    Obeys config s (turn company strategy a) fun o s' => DrainLeft a s o s' := by
  cases strategy with
  | deferred => exact process_obeys hc hd ht hs a
  | handoff => exact processUnlocked_obeys hc hd ht hs a

end Act

open Act

/-- A thread that sweeps is between two turns: what it still has to erase does not matter. -/
def Between (config : Config) (w : World σ) : Prop :=
  ∃ debt, Solo config w { drains := true, debt }

theorem Between.turn (hc : company.Civil) (h : Between config w) (strategy : SweepStrategy)
    (a : ActorRef) : Between config ((turn company strategy a).run w).2 := by
  obtain ⟨debt, h⟩ := h
  obtain ⟨s, hs, hsolo⟩ := (turn_obeys hc strategy rfl rfl rfl a).run h
  rw [DrainLeft] at hs
  split at hs
  · exact ⟨_, hs ▸ hsolo⟩
  · exact ⟨_, hs ▸ hsolo⟩

theorem Act.turn_stops (hc : company.Civil) (strategy : SweepStrategy) (a : ActorRef)
    (hw : Between config w) (ho : ((turn company strategy a).run w).1 = .poisoned) :
    ((turn company strategy a).run w).2.pool.phaseOf a = some .sick := by
  obtain ⟨debt, hw⟩ := hw
  obtain ⟨s, hs, hsolo⟩ := (turn_obeys hc strategy rfl rfl rfl a).run hw
  rw [DrainLeft, if_pos ho] at hs
  subst hs
  exact hsolo.taken.debtor 0 a List.mem_cons_self

/-! ## Rounds -/

inductive Rounds (config : Config) (company : Company σ) (strategy : SweepStrategy) :
    World σ → List ActorRef → List (Visit σ) → World σ → Prop
  | rest (w : World σ) : Rounds config company strategy w [] [] w
  | pass {w w' : World σ} {x : Atom σ} {turns : List ActorRef} {h : List (Visit σ)}
    (hx : x.between) (next : Rounds config company strategy (x.effect w) turns h w') :
    Rounds config company strategy w turns (⟨w, x⟩ :: h) w'
  | turn {w w' : World σ} {a : ActorRef} {turns : List ActorRef} {h : List (Visit σ)}
    (hw : Between config w) (idle : w.pool.isIdle a)
    (next : Rounds config company strategy ((turn company strategy a).run w).2 turns h w') :
    Rounds config company strategy w (a :: turns) ((turn company strategy a).visits w ++ h) w'

namespace Rounds

variable {turns more : List ActorRef} {h k : List (Visit σ)} {u : World σ}

theorem append (hr : Rounds config company strategy w turns h u)
    (hmore : Rounds config company strategy u more k w') :
    Rounds config company strategy w (turns ++ more) (h ++ k) w' := by
  induction hr with
  | rest w => exact hmore
  | pass hx _ ih => exact .pass hx (ih hmore)
  | turn hw idle _ ih =>
    rw [List.append_assoc]
    exact .turn hw idle (ih hmore)

theorem of_between {α : Type} {t : Act σ α} (ht : t.All (·.between)) (w : World σ) :
    Rounds config company strategy w [] (t.visits w) (t.run w).2 := by
  induction t generalizing w with
  | done b => exact .rest w
  | ask x next ih => exact .pass ht.1 (ih _ (ht.2 _) _)

/-- The turn of an actor, with what comes before it and after it. -/
theorem split (hr : Rounds config company strategy w turns h w') (ha : a ∈ turns) :
    ∃ earlier later before after u, turns = earlier ++ a :: later ∧
      h = before ++ (Act.turn company strategy a).visits u ++ after ∧
      Rounds config company strategy w earlier before u ∧ Between config u ∧ u.pool.isIdle a ∧
      Rounds config company strategy ((Act.turn company strategy a).run u).2 later after w' := by
  induction hr with
  | rest w => cases ha
  | @pass w w' x turns h hx next ih =>
    obtain ⟨earlier, later, before, after, u, rfl, rfl, hbefore, hu, hidle, hafter⟩ := ih ha
    exact ⟨earlier, later, ⟨w, x⟩ :: before, after, u, rfl, rfl, .pass hx hbefore, hu, hidle,
      hafter⟩
  | @turn w w' c turns h hw idle next ih =>
    by_cases hca : c = a
    · subst hca
      exact ⟨[], turns, [], h, w, rfl, rfl, .rest w, hw, idle, next⟩
    · have hin : a ∈ turns := (List.mem_cons.mp ha).resolve_left (Ne.symm hca)
      obtain ⟨earlier, later, before, after, u, rfl, rfl, hbefore, hu, hidle, hafter⟩ := ih hin
      refine ⟨c :: earlier, later, (Act.turn company strategy c).visits w ++ before, after, u, rfl,
        ?_, .turn hw idle hbefore, hu, hidle, hafter⟩
      simp only [List.append_assoc]

end Rounds

/-! ## Who is drained -/

/-- The actor that is taken for a drain by this access. -/
def Visit.drained (v : Visit σ) : Option ActorRef :=
  match v.atom with
  | .claim a => if v.world.pool.isIdle a then some a else none
  | _ => none

theorem drained_of_between {v : Visit σ} (hv : v.atom.between) : v.drained = none := by
  obtain ⟨w, x⟩ := v
  cases x <;> first | rfl | cases hv

namespace Act

theorem filterMap_eq_nil_of_all {α β : Type} {t : Act σ α} {P : Atom σ → Prop}
    {f : Visit σ → Option β} (ht : t.All P) (hf : ∀ v : Visit σ, P v.atom → f v = none)
    (w : World σ) : (t.visits w).filterMap f = [] := by
  rw [List.filterMap_eq_nil_iff]
  intro v hv
  exact hf v (visits_of_all ht w v hv)

/-- What is left of a turn when the actor has been taken. -/
def afterClaim (company : Company σ) (strategy : SweepStrategy) (a : ActorRef) : Act σ Outcome := do
  stepOf strategy .leaveRead
  let outcome ← drain company a
  stepOf strategy .enterRead
  finish a outcome
  return outcome

theorem turn_run (idle : w.pool.isIdle a) :
    (turn company strategy a).run w =
      (afterClaim company strategy a).run ((Atom.claim a).effect w) := by
  change Act.run (if w.pool.isIdle a then _ else _) _ = _
  rw [if_pos idle]
  rfl

theorem turn_visits (idle : w.pool.isIdle a) :
    (turn company strategy a).visits w =
      ⟨w, .claim a⟩ :: (afterClaim company strategy a).visits ((Atom.claim a).effect w) := by
  change ⟨w, .claim a⟩ :: (Act.visits (if w.pool.isIdle a then _ else _) _) = _
  rw [if_pos idle]
  rfl

theorem afterClaim_claims (hc : company.Civil) (strategy : SweepStrategy) (a : ActorRef) :
    (afterClaim company strategy a).All fun x => ∀ c, x ≠ .claim c := by
  have hstep : ∀ op, (stepOf (σ := σ) strategy op).All fun x => ∀ c, x ≠ .claim c := by
    intro op
    cases strategy with
    | deferred => trivial
    | handoff => exact ⟨nofun, fun _ => trivial⟩
  have hdrain : (drain company a).All fun x => ∀ c, x ≠ .claim c :=
    (drain_handles hc a).mono fun _ hx => hx.2
  refine Dialogue.all_bind (hstep _) fun _ => Dialogue.all_bind hdrain fun o => ?_
  exact Dialogue.all_bind (hstep _) fun _ => ⟨nofun, fun _ => trivial⟩

theorem turn_drained (hc : company.Civil) (idle : w.pool.isIdle a) :
    ((turn company strategy a).visits w).filterMap Visit.drained = [a] := by
  have hnone : ∀ v : Visit σ, (∀ c, v.atom ≠ .claim c) → v.drained = none := by
    intro v hv
    obtain ⟨u, x⟩ := v
    cases x with
    | claim c => exact absurd rfl (hv c)
    | _ => rfl
  rw [turn_visits idle, List.filterMap_cons,
    filterMap_eq_nil_of_all (afterClaim_claims hc strategy a) hnone]
  simp [Visit.drained, idle]

end Act

theorem Rounds.drained (hc : company.Civil) {turns : List ActorRef} {h : List (Visit σ)}
    (hr : Rounds config company strategy w turns h w') : h.filterMap Visit.drained = turns := by
  induction hr with
  | rest w => rfl
  | pass hx _ ih => rw [List.filterMap_cons, drained_of_between hx, ih]
  | turn hw idle _ ih => rw [List.filterMap_append, turn_drained hc idle, ih, List.singleton_append]

/-! ## Between two turns -/

namespace Act

theorem reportError_between (worker : Nat) (a : ActorRef) :
    (reportError worker a : Act σ Unit).All (·.between) :=
  ⟨rfl, fun _ => ⟨rfl, fun _ => trivial⟩⟩

theorem snapshot_between : (snapshot : Act σ (List ActorRef)).All (·.between) :=
  ⟨rfl, fun _ => ⟨rfl, fun _ => ⟨rfl, fun _ => trivial⟩⟩⟩

theorem removeSick_between : (removeSick : Act σ Nat).All (·.between) :=
  ⟨rfl, fun _ => ⟨rfl, fun _ => ⟨rfl, fun _ => ⟨rfl, fun _ => ⟨rfl, fun _ => trivial⟩⟩⟩⟩⟩

theorem removeActor_between (worker : Nat) (a : ActorRef) :
    (removeActor worker a : Act σ Unit).All (·.between) :=
  ⟨rfl, fun _ => ⟨rfl, fun _ => ⟨rfl, fun _ => ⟨rfl, fun _ => ⟨rfl, fun _ => ⟨rfl, fun _ =>
    ⟨rfl, fun _ => ⟨rfl, fun _ => trivial⟩⟩⟩⟩⟩⟩⟩⟩

/-- Nobody is drained between two turns. -/
theorem actors_of_between {α : Type} {t : Act σ α} (ht : t.All (·.between)) (w : World σ) :
    (t.run w).2.pool.actors = w.pool.actors := by
  induction t generalizing w with
  | done b => rfl
  | ask x next ih =>
    obtain ⟨hx, hnext⟩ := ht
    have hkept : (x.effect w).pool.actors = w.pool.actors := by
      rw [Atom.actors_effect]
      cases x <;> first | rfl | cases hx
    exact (ih _ (hnext _) _).trans hkept

theorem isIdle_of_between {α : Type} {t : Act σ α} (ht : t.All (·.between)) (w : World σ)
    (c : ActorRef) : (t.run w).2.pool.isIdle c = w.pool.isIdle c := by
  simp only [Pool.isIdle, Pool.actor?, actors_of_between ht]

/-! ## The deferred sweep -/

/-- What a deferred sweep does after a turn. -/
def afterTurn (worker : Nat) (a : ActorRef) : Outcome → Act σ Unit
  | .error => reportError worker a
  | .poisoned | .skipped | .complete => return ()

theorem afterTurn_between (worker : Nat) (a : ActorRef) (o : Outcome) :
    (afterTurn worker a o : Act σ Unit).All (·.between) := by
  cases o with
  | error => exact reportError_between worker a
  | poisoned | skipped | complete => trivial

end Act

theorem Between.afterTurn (h : Between config w) (worker : Nat) (a : ActorRef) (o : Outcome) :
    Between config ((afterTurn worker a o).run w).2 := by
  obtain ⟨debt, hsolo⟩ := h
  cases o with
  | error =>
    obtain ⟨s, rfl, hreported⟩ := (reportError_obeys worker a).run hsolo
    exact ⟨debt, hreported⟩
  | poisoned | skipped | complete => exact ⟨debt, hsolo⟩

namespace Act

/-- What becomes of the count of stopped actors with the outcome of a turn. -/
def countStopped (company : Company σ) (worker : Nat) (a : ActorRef) (rest : List ActorRef) :
    Outcome → Act σ Nat
  | .poisoned => return (← drainAll company worker rest) + 1
  | .error => do
    reportError worker a
    drainAll company worker rest
  | .skipped | .complete => drainAll company worker rest

theorem drainAll_cons (company : Company σ) (worker : Nat) (a : ActorRef) (rest : List ActorRef) :
    drainAll company worker (a :: rest) =
      turn company .deferred a >>= countStopped company worker a rest := by
  rw [drainAll]
  refine congrArg (process company a >>= ·) (funext fun o => ?_)
  cases o <;> rfl

section

variable (company : Company σ) (worker : Nat) (a : ActorRef) (rest : List ActorRef) (o : Outcome)
variable (w : World σ)

theorem countStopped_run :
    ((countStopped company worker a rest o).run w).2 =
        ((drainAll company worker rest).run ((afterTurn worker a o).run w).2).2 ∧
      (((countStopped company worker a rest o).run w).1 = 0 → o ≠ .poisoned ∧
        ((drainAll company worker rest).run ((afterTurn worker a o).run w).2).1 = 0) := by
  cases o with
  | poisoned => exact ⟨by simp [countStopped, afterTurn], by simp [countStopped]⟩
  | error | skipped | complete => exact ⟨rfl, fun hzero => ⟨by decide, hzero⟩⟩

theorem countStopped_visits :
    (countStopped company worker a rest o).visits w = (afterTurn worker a o).visits w ++
      (drainAll company worker rest).visits ((afterTurn worker a o).run w).2 := by
  cases o <;> simp [countStopped, afterTurn]

end

/-- A turn does not keep another actor from its own. -/
theorem isIdle_turn (hc : company.Civil) (strategy : SweepStrategy) {c : ActorRef} (hca : c ≠ a)
    (hidle : w.pool.isIdle c) : ((turn company strategy a).run w).2.pool.isIdle c := by
  rw [Pool.isIdle_iff] at hidle ⊢
  have hborn : c < w.pool.actors.size := Pool.phaseOf_isSome_iff.mp (Option.isSome_of_eq_some hidle)
  rw [(since (turn_handles hc strategy a) w).others c hborn hca]
  exact hidle

theorem drainAll_rounds (hc : company.Civil) (worker : Nat) {actors : List ActorRef}
    (hnodup : actors.Nodup) (hidle : ∀ a ∈ actors, w.pool.isIdle a) (h : Between config w) :
    Rounds config company .deferred w actors ((drainAll company worker actors).visits w)
      ((drainAll company worker actors).run w).2 := by
  induction actors generalizing w with
  | nil => exact .rest w
  | cons a rest ih =>
    obtain ⟨hfirst, hnodup⟩ := List.nodup_cons.mp hnodup
    have hidle_a : w.pool.isIdle a := hidle a List.mem_cons_self
    have hnext := h.turn hc .deferred a
    have hothers : ∀ c ∈ rest, ((turn company .deferred a).run w).2.pool.isIdle c := by
      intro c hin
      have hca : c ≠ a := fun hca => hfirst (hca ▸ hin)
      exact isIdle_turn hc .deferred hca (hidle c (List.mem_cons_of_mem a hin))
    rw [drainAll_cons, visits_bind, run_bind]
    refine .turn h hidle_a ?_
    generalize (turn company .deferred a).run w = r at hnext hothers
    obtain ⟨o, u⟩ := r
    have hafter := afterTurn_between (σ := σ) worker a o
    have hstill : ∀ c ∈ rest, ((afterTurn worker a o).run u).2.pool.isIdle c := by
      intro c hin
      rw [isIdle_of_between hafter]
      exact hothers c hin
    rw [countStopped_visits, (countStopped_run company worker a rest o u).1]
    exact (Rounds.of_between hafter u).append (ih hnodup hstill (hnext.afterTurn worker a o))

/-- The end of the deferred sweep, after so many actors have stopped. -/
def clearUp (worker n : Nat) : Act σ Unit := do
  if n ≠ 0 then
    let size ← removeSick
    report (.poisonedRemoved worker n size)

theorem sweepDeferred_eq (company : Company σ) (worker : Nat) :
    sweepDeferred company worker =
      snapshot >>= fun actors => drainAll company worker actors >>= clearUp worker := rfl

theorem clearUp_between (worker n : Nat) : (clearUp worker n : Act σ Unit).All (·.between) := by
  rw [clearUp]
  split
  · exact Dialogue.all_bind removeSick_between fun _ => ⟨rfl, fun _ => trivial⟩
  · trivial

/-- Every actor of the table has one turn, and nobody else has. -/
theorem sweepDeferred_rounds (hc : company.Civil) (worker : Nat) {d : Bool}
    (h : Solo config w (.rest d)) :
    Rounds config company .deferred w w.pool.table ((sweepDeferred company worker).visits w)
      ((sweepDeferred company worker).run w).2 := by
  obtain ⟨s, rfl, hsolo⟩ := snapshot_obeys.run (h.settled true)
  have hidle : ∀ a ∈ w.pool.table, ((snapshot : Act σ _).run w).2.pool.isIdle a := by
    intro a ha
    rw [isIdle_of_between snapshot_between]
    exact h.idle_of_mem ha
  have hrounds := drainAll_rounds hc worker h.kept.nodup hidle ⟨[], hsolo⟩
  have hfirst : Rounds config company .deferred w [] ((snapshot : Act σ _).visits w)
      ((snapshot : Act σ _).run w).2 := .of_between snapshot_between w
  have hclean := clearUp_between (σ := σ) worker
    ((drainAll company worker w.pool.table).run (snapshot.run w).2).1
  have hall := (hfirst.append hrounds).append (Rounds.of_between hclean _)
  rw [List.nil_append, List.append_nil, List.append_assoc] at hall
  rw [sweepDeferred_eq, visits_bind, run_bind, visits_bind, run_bind]
  exact hall

/-! ## The handoff sweep -/

/-- What the sweep does after the turn of the actor in slot `n`, and the slot to visit next. -/
def nextSlot (worker n : Nat) (a : ActorRef) : Outcome → Act σ (Option Nat)
  | .poisoned => do
    removeActor worker a
    return some n
  | .error => do
    reportError worker a
    return some (n + 1)
  | .skipped | .complete => return some (n + 1)

theorem visitSlot_eq (company : Company σ) (worker n : Nat) :
    visitSlot company worker n = .ask (.slot n) fun (found : Option ActorRef) =>
      match found with
      | none => .done none
      | some a => turn company .handoff a >>= nextSlot worker n a := by
  refine congrArg (Dialogue.ask _) (funext fun (found : Option ActorRef) => ?_)
  cases found with
  | none => rfl
  | some a =>
    refine congrArg (turn company .handoff a >>= ·) (funext fun o => ?_)
    cases o <;> rfl

theorem visitSlot_none (company : Company σ) {n : Nat} (ha : w.pool.table[n]? = none)
    (worker : Nat) :
    (visitSlot company worker n).run w = (none, w) ∧
      (visitSlot company worker n).visits w = [⟨w, .slot n⟩] := by
  rw [visitSlot_eq]
  simp only [Act.run, Act.visits, Atom.answer, Atom.effect]
  rw [ha]
  exact ⟨rfl, rfl⟩

theorem visitSlot_some (company : Company σ) {n : Nat} (ha : w.pool.table[n]? = some a)
    (worker : Nat) :
    (visitSlot company worker n).run w =
        (turn company .handoff a >>= nextSlot worker n a).run w ∧
      (visitSlot company worker n).visits w =
        ⟨w, .slot n⟩ :: (turn company .handoff a >>= nextSlot worker n a).visits w := by
  rw [visitSlot_eq]
  simp only [Act.run, Act.visits, Atom.answer, Atom.effect]
  rw [ha]
  exact ⟨rfl, rfl⟩

theorem nextSlot_between (worker n : Nat) (a : ActorRef) (o : Outcome) :
    (nextSlot worker n a o : Act σ _).All (·.between) := by
  cases o with
  | poisoned => exact Dialogue.all_bind (removeActor_between worker a) fun _ => trivial
  | error => exact Dialogue.all_bind (reportError_between worker a) fun _ => trivial
  | skipped | complete => trivial

theorem nextSlot_table (worker n : Nat) (a : ActorRef) (o : Outcome) (w : World σ) :
    ((nextSlot worker n a o).run w).2.pool.table =
      if o = .poisoned then w.pool.table.erase a else w.pool.table := by
  cases o <;> rfl

theorem nextSlot_answer (worker n : Nat) (a : ActorRef) (o : Outcome) (w : World σ) :
    ((nextSlot worker n a o).run w).1 = some (if o = .poisoned then n else n + 1) := by
  cases o <;> rfl

/-- Whether the actor stays or is erased, the sweep goes on with the one after it. -/
theorem nextSlot_drop {n : Nat} (worker : Nat) (o : Outcome) (hnodup : w.pool.table.Nodup)
    (ha : w.pool.table[n]? = some a) :
    ∃ m, ((nextSlot worker n a o).run w).1 = some m ∧
      m ≤ ((nextSlot worker n a o).run w).2.pool.table.length ∧
      ((nextSlot worker n a o).run w).2.pool.table.drop m = w.pool.table.drop (n + 1) := by
  obtain ⟨hn, hget⟩ := List.getElem?_eq_some_iff.mp ha
  refine ⟨_, nextSlot_answer worker n a o w, ?_⟩
  rw [nextSlot_table]
  by_cases ho : o = .poisoned
  · have herase : w.pool.table.erase a = w.pool.table.take n ++ w.pool.table.drop (n + 1) := by
      rw [← hget, hnodup.erase_getElem n hn, List.eraseIdx_eq_take_drop_succ]
    have htake : (w.pool.table.take n).length = n := List.length_take_of_le (Nat.le_of_lt hn)
    rw [if_pos ho, if_pos ho, herase]
    refine ⟨?_, List.drop_left' htake⟩
    rw [List.length_append, htake]
    exact Nat.le_add_right n _
  · rw [if_neg ho, if_neg ho]
    exact ⟨hn, rfl⟩

end Act

/-- A walk along the table from slot `n` on, which came to its end or was cut off after `fuel`
turns: `turns` are those who had one, and `rest` are left. -/
structure Walked (w w' : World σ) (n fuel : Nat) (ended : Bool) (turns rest : List ActorRef) :
    Prop where
  grown : w.pool.actors.size ≤ w'.pool.actors.size
  order : turns ++ rest = w.pool.table.drop n ++ w.pool.newcomers w'.pool
  all : ended → rest = []
  some : ended = false → turns.length = fuel

/-- The actor in slot `n` has its turn, from `w` to `u`, and the walk goes on with the one after it
from slot `m` of `v` on, where nobody has been registered since `u`. -/
theorem Walked.turn {u v w' : World σ} {n m fuel : Nat} {ended : Bool} {turns rest : List ActorRef}
    (ha : w.pool.table[n]? = Option.some a) (hturn : Pool.Since a w.pool u.pool)
    (hsize : v.pool.actors.size = u.pool.actors.size)
    (hdrop : v.pool.table.drop m = u.pool.table.drop (n + 1))
    (h : Walked v w' m fuel ended turns rest) :
    Walked w w' n (fuel + 1) ended (a :: turns) rest := by
  obtain ⟨hlength, hget⟩ := List.getElem?_eq_some_iff.mp ha
  have hgrown := h.grown
  rw [hsize] at hgrown
  have hfirst : w.pool.table.drop n = a :: w.pool.table.drop (n + 1) := by
    rw [List.drop_eq_getElem_cons hlength, hget]
  have hothers : v.pool.table.drop m = w.pool.table.drop (n + 1) ++ w.pool.newcomers u.pool := by
    rw [hdrop, hturn.table, List.drop_append_of_le_length hlength]
  have hnew : v.pool.newcomers = u.pool.newcomers := by
    funext q
    rw [Pool.newcomers, Pool.newcomers, hsize]
  refine ⟨Nat.le_trans hturn.grown hgrown, ?_, h.all, fun hcut => ?_⟩
  · rw [List.cons_append, h.order, hothers, hnew, hfirst, List.cons_append, List.append_assoc,
      Pool.newcomers_append hturn.grown hgrown]
  · rw [List.length_cons, h.some hcut]

namespace Act

theorem visitSlots_rounds (hc : company.Civil) (worker fuel : Nat) {n : Nat}
    (h : Solo config w (.rest true)) (hn : n ≤ w.pool.table.length) :
    ∃ turns rest, Rounds config company .handoff w turns
        ((visitSlots company worker fuel n).visits w)
        ((visitSlots company worker fuel n).run w).2 ∧
      Walked w ((visitSlots company worker fuel n).run w).2 n fuel
        ((visitSlots company worker fuel n).run w).1 turns rest := by
  induction fuel generalizing w n with
  | zero =>
    refine ⟨[], w.pool.table.drop n, .rest w, Nat.le_refl _, ?_, nofun, fun _ => rfl⟩
    simp [Pool.newcomers_eq_nil, visitSlots]
  | succ fuel ih =>
    obtain ⟨s, rfl, hnext⟩ := (visitSlot_obeys hc worker n).run h
    rw [visitSlots, visits_bind, run_bind]
    cases ha : w.pool.table[n]? with
    | none =>
      have hend : w.pool.table.length ≤ n := List.getElem?_eq_none_iff.mp ha
      obtain ⟨hrun, hvisits⟩ := visitSlot_none company ha worker
      rw [hrun, hvisits]
      refine ⟨[], [], .pass rfl (.rest w), Nat.le_refl _, ?_, fun _ => rfl, nofun⟩
      simp [Pool.newcomers_eq_nil, List.drop_eq_nil_of_le hend]
    | some a =>
      obtain ⟨hrun, hvisits⟩ := visitSlot_some company ha worker
      rw [hrun] at hnext ⊢
      rw [hvisits]
      rw [visits_bind]
      rw [run_bind] at hnext ⊢
      have hin : a ∈ w.pool.table := List.mem_of_getElem? ha
      have hidle : w.pool.isIdle a := h.idle_of_mem hin
      have hbetween : Between config w := ⟨[], h⟩
      have hturn := since (turn_handles hc .handoff a) w
      have hsolo := hbetween.turn hc .handoff a
      cases hr : (turn company .handoff a).run w with | mk o u => ?_
      rw [hr] at hnext hturn hsolo
      dsimp only at hnext hturn hsolo ⊢
      have hafter := nextSlot_between (σ := σ) worker n a o
      have hnodup : u.pool.table.Nodup := by
        obtain ⟨debt, hu⟩ := hsolo
        exact hu.kept.nodup
      have hslot : u.pool.table[n]? = some a := by
        rw [hturn.table, List.getElem?_append_left (List.getElem?_eq_some_iff.mp ha).1]
        exact ha
      obtain ⟨m, hm, hle, hdrop⟩ := nextSlot_drop worker o hnodup hslot
      have hpass : Rounds config company .handoff u [] ((nextSlot worker n a o).visits u)
          ((nextSlot worker n a o).run u).2 := .of_between hafter u
      have hsize : ((nextSlot worker n a o).run u).2.pool.actors.size = u.pool.actors.size := by
        rw [actors_of_between hafter]
      rw [hm]
      dsimp only
      generalize ((nextSlot worker n a o).run u).2 = v at hnext hle hdrop hsize hpass ⊢
      obtain ⟨turns, rest, hrounds, hwalked⟩ := ih hnext hle
      refine ⟨a :: turns, rest, ?_, ?_⟩
      · have hrest := Rounds.turn hbetween hidle (by rw [hr]; exact hpass.append hrounds)
        simp only [List.cons_append, List.append_assoc]
        exact .pass rfl hrest
      · exact hwalked.turn ha hturn hsize hdrop

/-- The sweep sees the end of the table before it is cut off. -/
def walkEnds (company : Company σ) (worker limit : Nat) (w : World σ) : Bool :=
  ((visitSlots company worker limit 0).run ((Atom.lock .enterRead).effect w)).1

theorem walk_rounds (hc : company.Civil) (worker limit : Nat) {d : Bool}
    (h : Solo config w (.rest d)) :
    ∃ turns rest, Rounds config company .handoff w turns ((walk company worker limit).visits w)
        ((walk company worker limit).run w).2 ∧
      Walked w ((walk company worker limit).run w).2 0 limit (walkEnds company worker limit w)
        turns rest := by
  obtain ⟨turns, rest, hrounds, hwalked⟩ :=
    visitSlots_rounds hc worker limit h.entered (Nat.zero_le _)
  rw [walk, run_bind, visits_bind, run_bind, visits_bind]
  refine ⟨turns, rest, ?_, hwalked.grown, hwalked.order, hwalked.all, hwalked.some⟩
  have hlock : ∀ op, (lockTable op : Act σ Unit).All (·.between) := fun _ => ⟨rfl, fun _ => trivial⟩
  have hall := (Rounds.of_between (hlock .enterRead) w).append
    (hrounds.append (Rounds.of_between (hlock .leaveRead) _))
  rw [List.nil_append, List.append_nil] at hall
  exact hall

/-! ## A sweep by either strategy -/

theorem sweepWithin_of_deferred (company : Company σ) (hs : w.pool.config.sweep = .deferred)
    (worker limit : Nat) :
    (sweepWithin company worker limit).run w = (sweepDeferred company worker).run w ∧
      (sweepWithin company worker limit).visits w =
        ⟨w, .look⟩ :: (sweepDeferred company worker).visits w := by
  simp only [sweepWithin, pool, run_bind, visits_bind, run_atom, visits_atom, run_pure, visits_pure,
    Atom.answer, Atom.effect, hs, List.append_nil, List.singleton_append, and_self]

theorem sweepWithin_of_handoff (company : Company σ) (hs : w.pool.config.sweep = .handoff)
    (worker limit : Nat) :
    (sweepWithin company worker limit).run w = (walk company worker limit).run w ∧
      (sweepWithin company worker limit).visits w =
        ⟨w, .look⟩ :: (walk company worker limit).visits w := by
  simp only [sweepWithin, pool, run_bind, visits_bind, run_atom, visits_atom, run_pure, visits_pure,
    Atom.answer, Atom.effect, hs, List.append_nil, List.singleton_append, and_self]

/-- The sweep comes to its end within `limit` visits. By itself a deferred sweep always does. -/
def sweepEnds (company : Company σ) (worker limit : Nat) (w : World σ) : Bool :=
  match w.pool.config.sweep with
  | .deferred => true
  | .handoff => walkEnds company worker limit w

/-- Nobody has two turns, and whoever was in the table before the sweep has one, as long as the
sweep is not cut off too early. -/
theorem sweepWithin_rounds (hc : company.Civil) (worker : Nat) {limit : Nat} {d : Bool}
    (h : Solo config w (.rest d)) (hlimit : w.pool.table.length ≤ limit) :
    ∃ turns, Rounds config company w.pool.config.sweep w turns
        ((sweepWithin company worker limit).visits w)
        ((sweepWithin company worker limit).run w).2 ∧
      turns.Nodup ∧ ∀ a ∈ w.pool.table, a ∈ turns := by
  cases hs : w.pool.config.sweep with
  | deferred =>
    obtain ⟨hrun, hvisits⟩ := sweepWithin_of_deferred company hs worker limit
    rw [hrun, hvisits]
    exact ⟨_, .pass rfl (sweepDeferred_rounds hc worker h), h.kept.nodup, fun _ ha => ha⟩
  | handoff =>
    obtain ⟨hrun, hvisits⟩ := sweepWithin_of_handoff company hs worker limit
    rw [hrun, hvisits]
    obtain ⟨turns, rest, hrounds, hwalked⟩ := walk_rounds hc worker limit h
    have horder := hwalked.order
    rw [List.drop_zero] at horder
    refine ⟨turns, .pass rfl hrounds, ?_, fun a ha => ?_⟩
    · have hall : (turns ++ rest).Nodup := by
        rw [horder, List.nodup_append']
        refine ⟨h.kept.nodup, List.nodup_range' 1 Nat.zero_lt_one, fun a ha hnew => ?_⟩
        have hborn := h.born_of_mem ha
        exact absurd hborn (Nat.not_lt_of_le (List.left_le_of_mem_range' hnew))
      exact (List.nodup_append'.mp hall).1
    · have hprefix : w.pool.table <+: turns ++ rest := ⟨_, horder.symm⟩
      cases hend : walkEnds company worker limit w with
      | true =>
        rw [hwalked.all hend, List.append_nil] at hprefix
        exact hprefix.subset ha
      | false =>
        have hlong : w.pool.table.length ≤ turns.length := by
          rw [hwalked.some hend]
          exact hlimit
        exact (List.prefix_of_prefix_length_le hprefix (List.prefix_append _ _) hlong).subset ha

end Act

end ActorSystem
