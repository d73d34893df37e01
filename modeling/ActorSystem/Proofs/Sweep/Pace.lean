import ActorSystem.Proofs.Act.Service
import ActorSystem.Proofs.Crew.Heeds
import ActorSystem.Proofs.Crew.Table

/-!
# The pace of a handoff sweep

A handoff sweep walks along the table by the number of the slot. Between two of its accesses others
may write the table, but how far it has come depends only on what it has done and learned itself:
this is its `Pace`. It visits whomever it has found in a slot, goes on with the slot after it, and
stays where it is when it has erased the actor itself.

`Paced p t R` says that the act `t`, begun at pace `p`, keeps to this in a pool that is set up for
handoff sweeps, whatever others do in between.

* `Paced.bind`, `Paced.ask`: the rules.
* `visitSlot_paced`, `visitSlots_paced`: the walk.
* `act_paced`: every routine that does not drain an actor on its own.
-/

namespace ActorSystem

variable {σ : Signature} {α β : Type}

inductive Pace where
  /-- The next slot to look into is `n`. -/
  | ahead (n : Nat)
  /-- Actor `a` has been found in slot `n`, and is to be visited. -/
  | called (n : Nat) (a : ActorRef)
  /-- It has been visited. -/
  | visiting (n : Nat) (a : ActorRef)
  /-- There was no slot `n`. -/
  | ended (n : Nat)
  deriving DecidableEq

/-- The access does not go along the table, takes nobody and erases nobody. -/
def Atom.steady : Atom σ → Bool
  | alter _ | claim _ | slot _ | eraseSick | erase _ => false
  | _ => true

namespace Pace

/-- How many slots have been passed. -/
def passed : Pace → Nat
  | ahead n | ended n => n
  | called n _ | visiting n _ => n + 1

/-- The sweep is ready to look into slot `m`. -/
def Heading : Pace → Nat → Prop
  | ahead n, m => m = n
  | visiting n _, m => m = n + 1
  | _, _ => False

def allows (p : Pace) (x : Atom σ) : Prop :=
  match p, x with
  | called _ a, x => x = .claim a
  | p, .slot m => p.Heading m
  | visiting _ a, .erase c => c = a
  | _, x => x.steady

def visit (p : Pace) (v : Visit σ) : Pace :=
  match p, v.atom with
  | _, .slot m =>
    match v.world.pool.table[m]? with
    | some a => called m a
    | none => ended m
  | called n a, .claim _ => visiting n a
  | visiting n _, .erase _ => ahead n
  | p, _ => p

/-- Nobody is waiting to be visited. -/
def calm : Pace → Bool
  | called .. => false
  | _ => true

variable {p : Pace} {m : Nat}

theorem calm_of_heading (h : p.Heading m) : p.calm := by
  cases p <;> first | rfl | exact h.elim

theorem passed_of_heading (h : p.Heading m) : p.passed = m := by
  cases p <;> first | exact h.symm | exact h.elim

theorem allows_slot (h : p.Heading m) : p.allows (.slot m : Atom σ) := by
  cases p <;> first | exact h | exact h.elim

theorem allows_steady {x : Atom σ} (hp : p.calm) (hx : x.steady) : p.allows x := by
  cases p with
  | called n a => cases hp
  | _ => cases x <;> first | exact hx | cases hx

theorem visit_steady {v : Visit σ} (hv : v.atom.steady) : p.visit v = p := by
  obtain ⟨w, x⟩ := v
  cases p <;> cases x <;> first | rfl | cases hv

/-- What a sweep does at this pace. -/
theorem allows_cases {x : Atom σ} (hx : p.allows x) :
    (x.steady ∧ p.calm) ∨ (∃ m, x = .slot m ∧ p.Heading m) ∨
      (∃ n a, p = called n a ∧ x = .claim a) ∨ ∃ n a, p = visiting n a ∧ x = .erase a := by
  cases p with
  | called n a => exact .inr (.inr (.inl ⟨n, a, rfl, hx⟩))
  | ahead n | ended n =>
    cases x with
    | slot m => exact .inr (.inl ⟨m, rfl, hx⟩)
    | _ => exact .inl ⟨hx, rfl⟩
  | visiting n a =>
    cases x with
    | slot m => exact .inr (.inl ⟨m, rfl, hx⟩)
    | erase b => exact .inr (.inr (.inr ⟨n, a, rfl, congrArg _ hx⟩))
    | _ => exact .inl ⟨hx, rfl⟩

theorem visit_slot (p : Pace) (w : World σ) (m : Nat) :
    p.visit ⟨w, .slot m⟩ = match w.pool.table[m]? with
      | some a => called m a
      | none => ended m := by
  cases p <;> rfl

end Pace

/-- How far a sweep has come by these accesses. -/
def paceOf (h : List (Visit σ)) : Pace := h.foldl Pace.visit (.ahead 0)

theorem paceOf_snoc (h : List (Visit σ)) (v : Visit σ) :
    paceOf (h ++ [v]) = (paceOf h).visit v := by
  simp only [paceOf, List.foldl_append, List.foldl_cons, List.foldl_nil]

/-- In all these worlds the pool is set up for handoff sweeps. -/
def Handed (h : List (Visit σ)) : Prop := ∀ v ∈ h, v.world.pool.config.sweep = .handoff

theorem handed_snoc {h : List (Visit σ)} {v : Visit σ} :
    Handed (h ++ [v]) ↔ Handed h ∧ v.world.pool.config.sweep = .handoff := by
  simp only [Handed, List.mem_append, List.mem_singleton, or_imp, forall_and, forall_eq]

def InPace (h : List (Visit σ)) (v : Visit σ) : Prop := Handed h → (paceOf h).allows v.atom

namespace Act

/-- Nothing is asked of an act in a pool that is not set up for handoff sweeps. -/
theorem heeds_of_not_handed {h : List (Visit σ)} (hh : ¬Handed h) (t : Act σ α) :
    Heeds InPace h t fun _ h' => ¬Handed h' := by
  induction t generalizing h with
  | done a => exact hh
  | ask x next ih =>
    intro w
    exact ⟨fun hhanded => absurd hhanded hh, ih _ fun hhanded => hh (handed_snoc.mp hhanded).1⟩

def Paced (p : Pace) (t : Act σ α) (R : α → Pace → Prop) : Prop :=
  ∀ h, (Handed h → paceOf h = p) → Heeds InPace h t fun a h' => Handed h' → R a (paceOf h')

namespace Paced

variable {p : Pace} {t : Act σ α} {R R' : α → Pace → Prop} {T : β → Pace → Prop}

theorem pure {a : α} (h : R a p) : Paced p (pure a : Act σ α) R :=
  fun _ hp => Heeds.pure fun hhanded => (hp hhanded).symm ▸ h

theorem mono (ht : Paced p t R) (h : ∀ a q, R a q → R' a q) : Paced p t R' :=
  fun k hp => (ht k hp).mono fun a _ hr hhanded => h a _ (hr hhanded)

theorem bind {f : α → Act σ β} (ht : Paced p t R) (hf : ∀ a q, R a q → Paced q (f a) T) :
    Paced p (t >>= f) T := by
  intro h hp
  refine (ht h hp).bind fun a h' hr => ?_
  by_cases hhanded : Handed h'
  · exact hf a _ (hr hhanded) h' fun _ => rfl
  · exact (heeds_of_not_handed hhanded (f a)).mono fun _ _ hnot hh => absurd hh hnot

theorem ask {x : Atom σ} {next : x.Answer → Act σ α} (hx : p.allows x)
    (hnext : ∀ w, w.pool.config.sweep = .handoff →
      Paced (p.visit ⟨w, x⟩) (next (x.answer w)) R) : Paced p (.ask x next) R := by
  intro h hp w
  refine ⟨fun hhanded => (hp hhanded).symm ▸ hx, ?_⟩
  by_cases hw : w.pool.config.sweep = .handoff
  · refine hnext w hw _ fun hhanded => ?_
    rw [paceOf_snoc, hp (handed_snoc.mp hhanded).1]
  · have hnot : ¬Handed (h ++ [⟨w, x⟩]) := fun hhanded => hw (handed_snoc.mp hhanded).2
    exact (heeds_of_not_handed hnot _).mono fun _ _ hnot hh => absurd hh hnot

theorem of_steady (hp : p.calm) (ht : t.All (·.steady)) : Paced p t fun _ q => q = p := by
  induction t with
  | done a => exact .pure rfl
  | ask x next ih =>
    refine .ask (Pace.allows_steady hp ht.1) fun w _ => ?_
    rw [Pace.visit_steady ht.1]
    exact ih _ (ht.2 _)

end Paced

/-! ## The walk -/

section

variable {company : Company σ}

theorem steady_of_asked {x : Atom σ} (hx : x.asked) : x.steady := by
  cases x <;> first | rfl | cases hx

theorem steady_of_handles {x : Atom σ} {a : ActorRef} (hx : x.handles a) (hne : ∀ c, x ≠ .claim c) :
    x.steady := by
  cases x with
  | claim c => exact absurd rfl (hne c)
  | alter f | slot n | eraseSick | erase c => cases hx
  | _ => rfl

theorem lockTable_steady (op : LockState.Op) : (lockTable op : Act σ Unit).All (·.steady) :=
  ⟨rfl, fun _ => trivial⟩

theorem processUnlocked_paced (hc : company.Civil) (n : Nat) (a : ActorRef) :
    Paced (.called n a) (processUnlocked company lockTable a) fun _ q => q = .visiting n a := by
  have hbegin : Paced (.called n a) (tryBegin a : Act σ Bool) fun _ q => q = .visiting n a :=
    .ask rfl fun _ _ => .pure rfl
  refine hbegin.bind fun taken q hq => ?_
  subst hq
  cases taken with
  | false => exact .pure rfl
  | true =>
    have hdrain : (drain company a).All (·.steady) :=
      (drain_handles hc a).mono fun _ hx => steady_of_handles hx.1 hx.2
    refine .of_steady rfl (Dialogue.all_bind (lockTable_steady _) fun _ =>
      Dialogue.all_bind hdrain fun o => ?_)
    exact Dialogue.all_bind (lockTable_steady _) fun _ => ⟨rfl, fun _ => trivial⟩

theorem removeActor_paced (worker n : Nat) (a : ActorRef) :
    Paced (.visiting n a) (removeActor worker a : Act σ Unit) fun _ q => q = .ahead n := by
  refine .ask rfl fun _ _ => .ask rfl fun _ _ => .ask rfl fun _ _ => .ask rfl fun _ _ => ?_
  exact .of_steady rfl ⟨rfl, fun _ => ⟨rfl, fun _ => ⟨rfl, fun _ => ⟨rfl, fun _ => trivial⟩⟩⟩⟩

theorem reportError_paced (worker n : Nat) (a : ActorRef) :
    Paced (.visiting n a) (reportError worker a : Act σ Unit) fun _ q => q = .visiting n a :=
  .of_steady rfl ⟨rfl, fun _ => ⟨rfl, fun _ => trivial⟩⟩

/-- Either the sweep goes on with the slot that is the answer, or there is none. -/
theorem visitSlot_paced (hc : company.Civil) (worker : Nat) {p : Pace} {n : Nat}
    (hp : p.Heading n) : Paced p (visitSlot company worker n) fun r q =>
      match r with
      | some m => q.Heading m
      | none => ∃ m, q = .ended m := by
  refine .ask (Pace.allows_slot hp) fun w _ => ?_
  rw [Pace.visit_slot]
  change Paced _ (Dialogue.bind (Dialogue.done w.pool.table[n]?) _) _
  cases w.pool.table[n]? with
  | none => exact .pure ⟨n, rfl⟩
  | some a =>
    refine (processUnlocked_paced hc n a).bind fun o q hq => ?_
    subst hq
    cases o with
    | poisoned =>
      refine (removeActor_paced worker n a).bind fun _ q hq => ?_
      subst hq
      exact .pure rfl
    | error =>
      refine (reportError_paced worker n a).bind fun _ q hq => ?_
      subst hq
      exact .pure rfl
    | skipped | complete => exact .pure rfl

theorem visitSlots_paced (hc : company.Civil) (worker fuel : Nat) {p : Pace} {n : Nat}
    (hp : p.Heading n) : Paced p (visitSlots company worker fuel n) fun _ q => q.calm := by
  induction fuel generalizing p n with
  | zero => exact .pure (Pace.calm_of_heading hp)
  | succ fuel ih =>
    refine (visitSlot_paced hc worker hp).bind fun r q hq => ?_
    cases r with
    | none =>
      obtain ⟨m, rfl⟩ := hq
      exact .pure rfl
    | some m => exact ih hq

theorem walk_paced (hc : company.Civil) (worker limit : Nat) :
    Paced (.ahead 0) (walk company worker limit) fun _ _ => True := by
  refine (Paced.of_steady rfl (lockTable_steady .enterRead)).bind fun _ q hq => ?_
  subst hq
  have hfirst : (Pace.ahead 0).Heading 0 := rfl
  refine (visitSlots_paced hc worker limit hfirst).bind fun _ q hq => ?_
  exact (Paced.of_steady hq (lockTable_steady .leaveRead)).mono fun _ _ _ => trivial

theorem sweepWithin_paced (hc : company.Civil) (worker limit : Nat) :
    Paced (.ahead 0) (sweepWithin company worker limit) fun _ _ => True := by
  refine .ask rfl fun w hw => ?_
  change Paced _ (Dialogue.bind (Dialogue.done w.pool) _) _
  simp only [Dialogue.bind, hw]
  exact walk_paced hc worker limit

/-! ## Routines -/

theorem act_paced (hc : company.Civil) {r : Routine σ} (hr : r.isDrain = false) :
    Paced (.ahead 0) (r.act company) fun _ _ => True := by
  cases r with
  | serve program =>
    have hprogram : (interpret company program).All (·.steady) :=
      (interpret_asked hc program).mono fun _ => steady_of_asked
    exact (Paced.of_steady rfl hprogram).bind fun _ _ _ => .pure trivial
  | slip a m =>
    have hlook : (pool : Act σ (Pool σ)).All (·.steady) := ⟨rfl, fun _ => trivial⟩
    have hslip : ((Routine.slip a m).act company).All (·.steady) := by
      refine Dialogue.all_bind hlook fun p => ?_
      split
      · exact ⟨rfl, fun _ => trivial⟩
      · trivial
    exact (Paced.of_steady rfl hslip).mono fun _ _ _ => trivial
  | sweep worker limit => exact (sweepWithin_paced hc worker limit).bind fun _ _ _ => .pure trivial
  | drain a | drainUnlocked a => cases hr

end

end Act

end ActorSystem
