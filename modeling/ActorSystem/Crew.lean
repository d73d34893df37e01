import ActorSystem.Moves
import ActorSystem.Routine

/-!
# Crews

Any number of threads on one world. A thread without a job may begin one; a thread with a job
makes its accesses one by one, with those of others in between, and waits as long as its next
access is not ready. There are no other steps, and nothing says whose turn it is: a list of
moves is one way in which the threads may run.

* `step_cases`: all that a move can be.
* `play_alone`: a thread that nobody disturbs does its job as `Act.run` does.
-/

namespace ActorSystem

abbrev ThreadId := Nat

/-- A routine under way. -/
structure Job (σ : Signature) where
  routine : Routine σ
  /-- The accesses made for it so far, oldest first. -/
  done : List (Visit σ) := []
  rest : Act σ (Option Outcome)

structure Crew (σ : Signature) where
  world : World σ
  jobs : ThreadId → Option (Job σ) := fun _ => none
  /-- The accesses of all threads, oldest first. -/
  past : List (ThreadId × Visit σ) := []
  /-- The routines that have come to an end, and what they came to. -/
  ended : List (Routine σ × Option Outcome) := []

inductive Move (σ : Signature) where
  | begin (i : ThreadId) (r : Routine σ)
  /-- The next access of the thread, or the end of its job. -/
  | go (i : ThreadId)

variable {σ : Signature}

/-- `f`, with `x` for thread `i`. -/
def assign {α : Type} (f : ThreadId → α) (i : ThreadId) (x : α) : ThreadId → α :=
  fun k => if k = i then x else f k

@[simp] theorem assign_self {α : Type} (f : ThreadId → α) (i : ThreadId) (x : α) :
    assign f i x i = x := if_pos rfl

theorem assign_of_ne {α : Type} (f : ThreadId → α) {i k : ThreadId} (x : α) (h : k ≠ i) :
    assign f i x k = f k := if_neg h

theorem assign_same {α : Type} (f : ThreadId → α) (i : ThreadId) : assign f i (f i) = f := by
  funext k
  rw [assign]
  split
  · rename_i hk
    rw [hk]
  · rfl

@[simp] theorem assign_assign {α : Type} (f : ThreadId → α) (i : ThreadId) (x y : α) :
    assign (assign f i x) i y = assign f i y := by
  funext k
  by_cases hki : k = i
  · rw [hki, assign_self, assign_self]
  · rw [assign_of_ne _ _ hki, assign_of_ne _ _ hki, assign_of_ne _ _ hki]

theorem assign_cases {α : Type} {f : ThreadId → α} {i k : ThreadId} {x y : α}
    (h : assign f i x k = y) : k = i ∧ x = y ∨ k ≠ i ∧ f k = y := by
  by_cases hki : k = i
  · subst hki
    exact .inl ⟨rfl, by rwa [assign_self] at h⟩
  · exact .inr ⟨hki, by rwa [assign_of_ne f x hki] at h⟩

def Job.start (company : Company σ) (r : Routine σ) : Job σ :=
  { routine := r, rest := r.act company }

namespace Crew

def empty (config : Config) (env : σ.Env) : Crew σ := { world := .empty config env }

/-- Thread `i`, whose job is `j`, makes access `x` and goes on with what it learned. -/
def access (c : Crew σ) (i : ThreadId) (j : Job σ) (x : Atom σ)
    (next : x.Answer → Act σ (Option Outcome)) : Crew σ :=
  let v : Visit σ := ⟨c.world, x⟩
  let job := { j with done := j.done ++ [v], rest := next (x.answer c.world) }
  { c with
    world := x.effect c.world
    jobs := assign c.jobs i (some job)
    past := c.past ++ [(i, v)] }

/-- Thread `i` is done with its job `j`, which came to `o`. -/
def leave (c : Crew σ) (i : ThreadId) (j : Job σ) (o : Option Outcome) : Crew σ :=
  { c with jobs := assign c.jobs i none, ended := c.ended ++ [(j.routine, o)] }

/-- The crew after a move, or nothing if the thread cannot make it. -/
def step (company : Company σ) (c : Crew σ) : Move σ → Option (Crew σ)
  | .begin i r =>
    match c.jobs i with
    | none => some { c with jobs := assign c.jobs i (some (Job.start company r)) }
    | some _ => none
  | .go i =>
    match c.jobs i with
    | none => none
    | some j =>
      match j.rest with
      | .done o => some (c.leave i j o)
      | .ask x next => if x.ready c.world then some (c.access i j x next) else none

/-- The crew after these moves in this order, or nothing if one of them cannot be made. -/
def play (company : Company σ) (c : Crew σ) (ms : List (Move σ)) : Option (Crew σ) :=
  Moves.play (step company) c ms

variable {company : Company σ} {c c' : Crew σ}

/-- All that a move can be. -/
theorem step_cases {m : Move σ} (h : c.step company m = some c') :
    (∃ i r, m = .begin i r ∧ c.jobs i = none ∧
      c' = { c with jobs := assign c.jobs i (some (Job.start company r)) }) ∨
    (∃ i j o, m = .go i ∧ c.jobs i = some j ∧ j.rest = .done o ∧ c' = c.leave i j o) ∨
    (∃ i j x next, m = .go i ∧ c.jobs i = some j ∧ j.rest = .ask x next ∧ x.ready c.world ∧
      c' = c.access i j x next) := by
  cases m with
  | begin i r =>
    simp only [step] at h
    split at h
    · exact .inl ⟨i, r, rfl, ‹_›, (Option.some.inj h).symm⟩
    · cases h
  | go i =>
    simp only [step] at h
    split at h
    · cases h
    · rename_i j hj
      split at h
      · rename_i o ho
        exact .inr (.inl ⟨i, j, o, rfl, hj, ho, (Option.some.inj h).symm⟩)
      · rename_i x next hx
        split at h
        · exact .inr (.inr ⟨i, j, x, next, rfl, hj, hx, ‹_›, (Option.some.inj h).symm⟩)
        · cases h

/-- What a step is to thread `k`, which has the job `l` after it. -/
theorem job_cases {k : ThreadId} {m : Move σ} {l : Job σ} (hstep : c.step company m = some c')
    (hl : c'.jobs k = some l) :
    (∃ r, m = .begin k r ∧ l = Job.start company r ∧ c'.world = c.world ∧ c'.past = c.past) ∨
    (∃ j x next, c.jobs k = some j ∧ j.rest = .ask x next ∧
      l = ⟨j.routine, j.done ++ [⟨c.world, x⟩], next (x.answer c.world)⟩ ∧
      c'.world = x.effect c.world ∧ c'.past = c.past ++ [(k, ⟨c.world, x⟩)]) ∨
    (c.jobs k = some l ∧ ((c'.world = c.world ∧ c'.past = c.past) ∨
      ∃ i j x next, i ≠ k ∧ c.jobs i = some j ∧ j.rest = .ask x next ∧
        c'.world = x.effect c.world ∧ c'.past = c.past ++ [(i, ⟨c.world, x⟩)])) := by
  rcases step_cases hstep with ⟨i, r, rfl, -, rfl⟩ | ⟨i, j, o, -, -, -, rfl⟩ |
    ⟨i, j, x, next, -, hj, hrest, -, rfl⟩
  · rcases assign_cases hl with ⟨rfl, hjob⟩ | ⟨-, hold⟩
    · exact .inl ⟨r, rfl, (Option.some.inj hjob).symm, rfl, rfl⟩
    · exact .inr (.inr ⟨hold, .inl ⟨rfl, rfl⟩⟩)
  · rcases assign_cases hl with ⟨-, hjob⟩ | ⟨-, hold⟩
    · cases hjob
    · exact .inr (.inr ⟨hold, .inl ⟨rfl, rfl⟩⟩)
  · rcases assign_cases hl with ⟨rfl, hjob⟩ | ⟨hki, hold⟩
    · exact .inr (.inl ⟨j, x, next, hj, hrest, (Option.some.inj hjob).symm, rfl, rfl⟩)
    · exact .inr (.inr ⟨hold, .inr ⟨i, j, x, next, Ne.symm hki, hj, hrest, rfl, rfl⟩⟩)

/-! ## One thread alone -/

theorem play_alone {i : ThreadId} {j : Job σ} (hj : c.jobs i = some j) {n : Nat}
    (hplay : c.play company (List.replicate n (.go i)) = some c') (hidle : c'.jobs i = none) :
    c'.world = (j.rest.run c.world).2 ∧
      c'.ended = c.ended ++ [(j.routine, (j.rest.run c.world).1)] := by
  induction n generalizing c j with
  | zero =>
    cases hplay
    rw [hj] at hidle
    cases hidle
  | succ n ih =>
    obtain ⟨d, hd, hplay⟩ := Moves.play_cons.mp hplay
    simp only [step, hj] at hd
    split at hd
    · rename_i o ho
      cases hd
      rw [ho]
      cases n with
      | zero =>
        cases hplay
        exact ⟨rfl, rfl⟩
      | succ n =>
        -- a thread without a job cannot go on
        simp [List.replicate_succ, Moves.play, step, leave] at hplay
    · rename_i x next hx
      split at hd
      · cases hd
        have hgo := ih (assign_self _ _ _) hplay
        rw [hx]
        exact hgo
      · cases hd

end Crew

end ActorSystem
