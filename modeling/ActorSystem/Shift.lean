import ActorSystem.Moves
import ActorSystem.Worker

/-!
# Shifts

Workers and callers at one site. The workers run their loop; a caller does what it was called to
do, with nobody to say when calls come or how many there are. Each thread makes its motions one
by one, with those of others in between, and waits as long as its next motion is not ready.

The handoff sweep is cut off after so many visits as the move says that begins it.
-/

namespace ActorSystem

variable {σ : Signature}

inductive Call (σ : Signature) where
  /-- Whatever an outsider asks of the pool. -/
  | serve (program : Program σ Unit)
  | stopAll

def Call.duty (company : Company σ) (workers : Nat) : Call σ → Duty σ Unit
  | serve program => .ofAct workers (Act.interpret company program)
  | stopAll => .stopAll (List.range workers)

inductive Thread where
  | worker (w : Nat)
  | caller (k : Nat)
  deriving DecidableEq

/-- A motion, and what the thread learned from it. -/
structure Deed (σ : Signature) where
  motion : Motion σ
  answer : motion.Answer

structure Shift (σ : Signature) where
  site : Site σ
  places : Nat → Place σ := fun _ => .hired
  calls : Nat → Option (Call σ × Duty σ Unit) := fun _ => none
  /-- The motions of all threads, oldest first. -/
  past : List (Thread × Deed σ) := []
  /-- The calls that have come to an end. -/
  ended : List (Call σ) := []

namespace Shift

inductive Move (σ : Signature) where
  /-- A worker begins a sweep. -/
  | sweep (w limit : Nat)
  /-- The next motion of a worker. -/
  | work (w : Nat)
  | call (k : Nat) (x : Call σ)
  /-- The next motion of a caller, or the end of its call. -/
  | go (k : Nat)

/-- All threads at their beginning. -/
def start (config : Config) (env : σ.Env) : Shift σ := { site := { world := .empty config env } }

/-- Thread `t` makes a motion. -/
def perform (c : Shift σ) (t : Thread) (x : Motion σ) : Shift σ :=
  { c with site := x.effect c.site, past := c.past ++ [(t, ⟨x, x.answer c.site⟩)] }

def setPlace (c : Shift σ) (w : Nat) (place : Place σ) : Shift σ :=
  { c with places := Function.update c.places w place }

def setCall (c : Shift σ) (k : Nat) (call : Option (Call σ × Duty σ Unit)) : Shift σ :=
  { c with calls := Function.update c.calls k call }

/-- The shift after a move, or nothing if the thread cannot make it. -/
def step (company : Company σ) (workers : Nat) (c : Shift σ) : Move σ → Option (Shift σ)
  | .sweep w limit =>
    match c.places w with
    | .ready => some (c.setPlace w (.ofSweep (.ofAct workers (Act.sweepWithin company w limit))))
    | _ => none
  | .work w =>
    if w < workers then
      match (c.places w).next w with
      | some ⟨x, next⟩ =>
        if x.ready c.site then some ((c.perform (.worker w) x).setPlace w (next (x.answer c.site)))
        else none
      | none => none
    else none
  | .call k x =>
    match c.calls k with
    | none => some (c.setCall k (some (x, x.duty company workers)))
    | some _ => none
  | .go k =>
    match c.calls k with
    | none => none
    | some (x, .done ()) => some { c.setCall k none with ended := c.ended ++ [x] }
    | some (call, .ask x next) =>
      if x.ready c.site then
        some ((c.perform (.caller k) x).setCall k (some (call, next (x.answer c.site))))
      else none

/-- The shift after these moves in this order, or nothing if one of them cannot be made. -/
def play (company : Company σ) (workers : Nat) (c : Shift σ) (ms : List (Move σ)) :
    Option (Shift σ) :=
  Moves.play (step company workers) c ms

/-- The move by which a thread makes its next motion. -/
def Move.of : Thread → Move σ
  | .worker w => .work w
  | .caller k => .go k

/-- The motion that a thread is about to make. -/
def next (c : Shift σ) (workers : Nat) : Thread → Option (Motion σ)
  | .worker w => if w < workers then ((c.places w).next w).map (·.1) else none
  | .caller k =>
    match c.calls k with
    | some (_, .ask x _) => some x
    | _ => none

variable {company : Company σ} {workers : Nat} {c c' : Shift σ}

theorem next_worker {w : Nat} {x : Motion σ} {f : x.Answer → Place σ} (hw : w < workers)
    (h : (c.places w).next w = some ⟨x, f⟩) : c.next workers (.worker w) = some x := by
  simp [next, hw, h]

theorem next_caller {k : Nat} {call : Call σ} {x : Motion σ} {f : x.Answer → Duty σ Unit}
    (h : c.calls k = some (call, .ask x f)) : c.next workers (.caller k) = some x := by
  simp [next, h]

/-- Where a thread's next motion comes from. -/
theorem next_cases {t : Thread} {x : Motion σ} (h : c.next workers t = some x) :
    (∃ w f, t = .worker w ∧ w < workers ∧ (c.places w).next w = some ⟨x, f⟩) ∨
    ∃ k call f, t = .caller k ∧ c.calls k = some (call, .ask x f) := by
  cases t with
  | worker w =>
    simp only [next] at h
    split at h
    · obtain ⟨⟨x, f⟩, hnext, rfl⟩ := Option.map_eq_some_iff.mp h
      exact .inl ⟨w, f, rfl, ‹_›, hnext⟩
    · cases h
  | caller k =>
    simp only [next] at h
    split at h
    · rename_i call x f hk
      cases h
      exact .inr ⟨k, call, f, rfl, hk⟩
    · cases h

/-- All that a move can be. -/
theorem step_cases {m : Move σ} (h : c.step company workers m = some c') :
    (∃ w limit, m = .sweep w limit ∧ c.places w = .ready ∧
      c' = c.setPlace w (.ofSweep (.ofAct workers (Act.sweepWithin company w limit)))) ∨
    (∃ w x next, m = .work w ∧ w < workers ∧ (c.places w).next w = some ⟨x, next⟩ ∧
      x.ready c.site ∧ c' = (c.perform (.worker w) x).setPlace w (next (x.answer c.site))) ∨
    (∃ k x, m = .call k x ∧ c.calls k = none ∧
      c' = c.setCall k (some (x, x.duty company workers))) ∨
    (∃ k x, m = .go k ∧ c.calls k = some (x, .done ()) ∧
      c' = { c.setCall k none with ended := c.ended ++ [x] }) ∨
    (∃ k call x next, m = .go k ∧ c.calls k = some (call, .ask x next) ∧ x.ready c.site ∧
      c' = (c.perform (.caller k) x).setCall k (some (call, next (x.answer c.site)))) := by
  cases m with
  | sweep w limit =>
    simp only [step] at h
    split at h
    · exact .inl ⟨w, limit, rfl, ‹_›, (Option.some.inj h).symm⟩
    · cases h
  | work w =>
    simp only [step] at h
    split at h
    · split at h
      · rename_i x next hnext
        split at h
        · exact .inr (.inl ⟨w, x, next, rfl, ‹_›, hnext, ‹_›, (Option.some.inj h).symm⟩)
        · cases h
      · cases h
    · cases h
  | call k x =>
    simp only [step] at h
    split at h
    · exact .inr (.inr (.inl ⟨k, x, rfl, ‹_›, (Option.some.inj h).symm⟩))
    · cases h
  | go k =>
    simp only [step] at h
    split at h
    · cases h
    · rename_i x hx
      exact .inr (.inr (.inr (.inl ⟨k, x, rfl, hx, (Option.some.inj h).symm⟩)))
    · rename_i call x next hx
      split at h
      · exact .inr (.inr (.inr (.inr ⟨k, call, x, next, rfl, hx, ‹_›, (Option.some.inj h).symm⟩)))
      · cases h

end Shift

end ActorSystem
