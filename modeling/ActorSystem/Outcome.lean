/-!
# Outcomes

What handling one message, or draining one batch, came to, and the two policies by which a
batch sums up the outcomes of its messages.

* `fold_complete`: a message that went well leaves the sum as it was.
* `foldAll_last`, `foldAll_first`: from `complete`, a batch sums up to its last, or first,
  outcome other than `complete`.
-/

namespace ActorSystem

inductive Outcome where
  /-- Nothing was done: the actor was busy or stopped, or had no mail. -/
  | skipped
  | complete
  /-- The role failed; its actor goes on. -/
  | error
  | poisoned
  deriving DecidableEq, Inhabited

def Outcome.name : Outcome → String
  | skipped => "Skipped"
  | complete => "Complete"
  | error => "Error"
  | poisoned => "Poisoned"

instance : ToString Outcome := ⟨Outcome.name⟩

/-- Which of several outcomes other than `complete` a batch reports. -/
inductive BatchPolicy where
  | lastNonComplete
  | firstNonComplete
  deriving DecidableEq, Inhabited

namespace BatchPolicy

def name : BatchPolicy → String
  | lastNonComplete => "last_non_complete"
  | firstNonComplete => "first_non_complete"

def fold (policy : BatchPolicy) (sum next : Outcome) : Outcome :=
  if next = .complete then sum
  else match policy with
    | lastNonComplete => next
    | firstNonComplete => if sum = .complete then next else sum

def foldTrace (policy : BatchPolicy) (sum : Outcome) : List Outcome → List Outcome
  | [] => []
  | next :: rest =>
    let sum := policy.fold sum next
    sum :: policy.foldTrace sum rest

def foldAll (policy : BatchPolicy) (sum : Outcome) (os : List Outcome) : Outcome :=
  os.foldl policy.fold sum

@[simp] theorem fold_complete (policy : BatchPolicy) (sum : Outcome) :
    policy.fold sum .complete = sum := rfl

/-- A batch that no message stopped does not sum up to `poisoned`. -/
theorem fold_ne_poisoned (policy : BatchPolicy) {sum next : Outcome} (hs : sum ≠ .poisoned)
    (hn : next ≠ .poisoned) : policy.fold sum next ≠ .poisoned := by
  unfold fold
  split
  · exact hs
  cases policy with
  | lastNonComplete => exact hn
  | firstNonComplete =>
    dsimp only
    split
    · exact hn
    · exact hs

theorem foldAll_last_from (sum : Outcome) (os : List Outcome) :
    lastNonComplete.foldAll sum os =
      ((os.filter (· ≠ .complete)).getLast?).getD sum := by
  induction os generalizing sum with
  | nil => rfl
  | cons o os ih =>
    have step : lastNonComplete.foldAll sum (o :: os) =
        lastNonComplete.foldAll (lastNonComplete.fold sum o) os := rfl
    rw [step, ih]
    by_cases h : o = .complete
    · subst h; simp
    · have hf : lastNonComplete.fold sum o = o := by simp [fold, h]
      rw [hf, List.filter_cons_of_pos (by simpa using h), List.getLast?_cons]
      rfl

theorem foldAll_last (os : List Outcome) :
    lastNonComplete.foldAll .complete os =
      ((os.filter (· ≠ .complete)).getLast?).getD .complete :=
  foldAll_last_from _ _

theorem foldAll_first_of_ne {sum : Outcome} (h : sum ≠ .complete) (os : List Outcome) :
    firstNonComplete.foldAll sum os = sum := by
  induction os with
  | nil => rfl
  | cons o os ih =>
    have step : firstNonComplete.foldAll sum (o :: os) =
        firstNonComplete.foldAll (firstNonComplete.fold sum o) os := rfl
    have hf : firstNonComplete.fold sum o = sum := by simp [fold, h]
    rw [step, hf, ih]

theorem foldAll_first (os : List Outcome) :
    firstNonComplete.foldAll .complete os =
      ((os.filter (· ≠ .complete)).head?).getD .complete := by
  induction os with
  | nil => rfl
  | cons o os ih =>
    have step : firstNonComplete.foldAll .complete (o :: os) =
        firstNonComplete.foldAll (firstNonComplete.fold .complete o) os := rfl
    by_cases h : o = .complete
    · subst h; rw [step, fold_complete, ih]; rfl
    · have hf : firstNonComplete.fold .complete o = o := by simp [fold, h]
      rw [step, hf, foldAll_first_of_ne h, List.filter_cons_of_pos (by simpa using h)]
      rfl

end BatchPolicy

end ActorSystem
