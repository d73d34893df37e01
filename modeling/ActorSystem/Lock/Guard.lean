import ActorSystem.Lock.Waiting
import ActorSystem.Moves
import Mathlib.Logic.Function.Basic

/-!
# Guards of a reader/writer lock

The lock, the value that it protects, and the guards through which threads get at the value. Who
enters gets a guard, which is good until it is dropped. A reader can step out for the time of a
call, with the guard at hand, and steps back in when the call ends, by itself or by a panic.

A guard knows the value as it was when access was granted, and what was written through it since.
A thread acts on what its guard knows, so that it shows if somebody else interferes.

Each move is one critical section under the lock's mutex, or one use of the value. A thread that
sleeps at the lock makes no move but to ask again, which it may do whether or not it was woken.
-/

namespace ActorSystem

/-- How a guard stands. -/
inductive Hold (τ : Type) where
  | held
  /-- Its reader has stepped out, in a call of this thread. -/
  | out (t : τ)
  | gone
  deriving DecidableEq

structure Guard (τ α : Type) where
  access : Access
  hold : Hold τ := .held
  /-- The value as far as the guard knows. -/
  view : α

def Guard.isHeld {τ α : Type} [DecidableEq τ] (access : Access) (x : Guard τ α) : Bool :=
  x.access = access && x.hold = .held

/-- What a thread asks of the lock. -/
inductive Wish where
  /-- A new guard. -/
  | enter (access : Access)
  /-- To step back in with guard `g`. -/
  | back (g : Nat)
  deriving DecidableEq

def Wish.access : Wish → Access
  | enter access => access
  | back _ => .read

/-- Where a thread is. -/
structure Visitor where
  /-- What the thread sleeps for. -/
  wish : Option Wish := none
  /-- It has given up the claim and has yet to open the gate. -/
  opening : Bool := false
  /-- The guards with which it has stepped out, the innermost call first. -/
  inside : List Nat := []
  /-- It is leaving its calls because of a panic. What it does then, destructors do, and they may
  use the lock like anybody. -/
  unwinding : Bool := false

def Visitor.awake (v : Visitor) : Bool := v.wish = none && !v.opening

structure Guarded (τ α : Type) where
  lock : Lock τ := {}
  value : α
  /-- All guards that were ever given out. -/
  guards : Array (Guard τ α) := #[]
  visitors : τ → Visitor := fun _ => {}

namespace Guarded

inductive Move (τ α : Type) where
  | enter (t : τ) (access : Access)
  /-- A thread that sleeps asks again. -/
  | resume (t : τ)
  /-- Guard `g` changes the value by `f`. -/
  | write (t : τ) (g : Nat) (f : α → α)
  | drop (t : τ) (g : Nat)
  /-- The second half of dropping a writer. -/
  | openGate (t : τ)
  /-- A call for whose time the reader with guard `g` steps out. -/
  | stepOut (t : τ) (g : Nat)
  /-- The end of the innermost such call. -/
  | stepBack (t : τ)
  | panic (t : τ)
  /-- The panic is caught. -/
  | recover (t : τ)

/-- The change to the value that a move makes. -/
def Move.update? {τ α : Type} : Move τ α → Option (α → α)
  | write _ _ f => some f
  | _ => none

variable {τ α : Type} [DecidableEq τ]

def new (value : α) : Guarded τ α := { value }

def setVisitor (s : Guarded τ α) (t : τ) (v : Visitor) : Guarded τ α :=
  { s with visitors := Function.update s.visitors t v }

def setHold (s : Guarded τ α) (g : Nat) (hold : Hold τ) : Guarded τ α :=
  { s with guards := s.guards.modify g fun x => { x with hold } }

/-- Gives thread `t` what it asked for. -/
def grant (s : Guarded τ α) (t : τ) : Wish → Guarded τ α
  | .enter access =>
    { s with guards := s.guards.push { access, view := s.value } }.setVisitor t
      { s.visitors t with wish := none }
  | .back g =>
    let guards := s.guards.modify g fun x => { x with hold := .held, view := s.value }
    { s with guards }.setVisitor t
      { s.visitors t with wish := none, inside := (s.visitors t).inside.tail }

/-- The answer of the lock to a wish: the flag says whether it is granted. -/
def answer (s : Guarded τ α) (t : τ) (wish : Wish) : Bool × Lock τ → Guarded τ α
  | (true, lock) => { s with lock }.grant t wish
  | (false, lock) => { s with lock }.setVisitor t { s.visitors t with wish := some wish }

/-- A guard that is held, if it is one of this kind. -/
def held? (s : Guarded τ α) (g : Nat) (access : Access) : Option (Guard τ α) :=
  s.guards[g]?.filter (·.isHeld access)

def dropRead (s : Guarded τ α) (g : Nat) : Guarded τ α :=
  { s with lock := s.lock.leaveRead }.setHold g .gone

def dropWrite (s : Guarded τ α) (t : τ) (g : Nat) : Guarded τ α :=
  ({ s with lock := s.lock.leaveWrite }.setHold g .gone).setVisitor t
    { s.visitors t with opening := true }

def write (s : Guarded τ α) (g : Nat) (x : Guard τ α) (f : α → α) : Guarded τ α :=
  { s with value := f x.view, guards := s.guards.modify g fun y => { y with view := f x.view } }

def stepOut (s : Guarded τ α) (t : τ) (g : Nat) : Guarded τ α :=
  ({ s with lock := s.lock.leaveRead }.setHold g (.out t)).setVisitor t
    { s.visitors t with inside := g :: (s.visitors t).inside }

/-- What the move leads to, or nothing if the thread cannot make it. -/
def step (s : Guarded τ α) : Move τ α → Option (Guarded τ α)
  | .enter t access =>
    if (s.visitors t).awake then some (s.answer t (.enter access) (s.lock.enter t access)) else none
  | .resume t =>
    match (s.visitors t).wish, s.lock.sleepers.find? (·.thread = t) with
    | some wish, some sleeper => some (s.answer t wish (s.lock.resume sleeper))
    | _, _ => none
  | .write t g f =>
    if (s.visitors t).awake then (s.held? g .write).map (s.write g · f) else none
  | .drop t g =>
    if (s.visitors t).awake then
      match s.held? g .read, s.held? g .write with
      | some _, _ => some (s.dropRead g)
      | none, some _ => some (s.dropWrite t g)
      | none, none => none
    else none
  | .openGate t =>
    if (s.visitors t).opening then
      some ({ s with lock := s.lock.openGate }.setVisitor t { s.visitors t with opening := false })
    else none
  | .stepOut t g =>
    if (s.visitors t).awake then (s.held? g .read).map fun _ => s.stepOut t g else none
  | .stepBack t =>
    if (s.visitors t).awake then
      (s.visitors t).inside.head?.map fun g => s.answer t (.back g) (s.lock.enter t .read)
    else none
  | .panic t =>
    if (s.visitors t).awake && !(s.visitors t).unwinding then
      some (s.setVisitor t { s.visitors t with unwinding := true })
    else none
  | .recover t =>
    if (s.visitors t).awake && (s.visitors t).unwinding then
      some (s.setVisitor t { s.visitors t with unwinding := false })
    else none

def play (s : Guarded τ α) (ms : List (Move τ α)) : Option (Guarded τ α) := Moves.play step s ms

variable {s s' : Guarded τ α}

theorem wish_of_awake {v : Visitor} (h : v.awake) : v.wish = none := by
  simp only [Visitor.awake, Bool.and_eq_true, decide_eq_true_eq] at h
  exact h.1

/-- All that a move can be. -/
inductive Made (s : Guarded τ α) : Move τ α → Guarded τ α → Prop where
  | asked {m : Move τ α} {t : τ} {wish : Wish} (update : m.update? = none)
    (up : (s.visitors t).wish = none)
    (back : ∀ g, wish = .back g → (s.visitors t).inside.head? = some g) :
    Made s m (s.answer t wish (s.lock.enter t wish.access))
  | resumed {t : τ} {wish : Wish} {sleeper : Sleeper τ} (wished : (s.visitors t).wish = some wish)
    (found : s.lock.sleepers.find? (·.thread = t) = some sleeper) :
    Made s (.resume t) (s.answer t wish (s.lock.resume sleeper))
  | wrote {t : τ} {g : Nat} {f : α → α} {x : Guard τ α} (held : s.held? g .write = some x) :
    Made s (.write t g f) (s.write g x f)
  | droppedRead {t : τ} {g : Nat} {x : Guard τ α} (held : s.held? g .read = some x) :
    Made s (.drop t g) (s.dropRead g)
  | droppedWrite {t : τ} {g : Nat} {x : Guard τ α} (held : s.held? g .write = some x) :
    Made s (.drop t g) (s.dropWrite t g)
  | steppedOut {t : τ} {g : Nat} {x : Guard τ α} (up : (s.visitors t).wish = none)
    (held : s.held? g .read = some x) : Made s (.stepOut t g) (s.stepOut t g)
  | opened {t : τ} {v : Visitor} (wish : v.wish = (s.visitors t).wish)
    (inside : v.inside = (s.visitors t).inside) :
    Made s (.openGate t) ({ s with lock := s.lock.openGate }.setVisitor t v)
  | turned {m : Move τ α} {t : τ} {v : Visitor} (update : m.update? = none)
    (wish : v.wish = (s.visitors t).wish) (inside : v.inside = (s.visitors t).inside)
    (opening : v.opening = (s.visitors t).opening) : Made s m (s.setVisitor t v)

theorem made_of_step {m : Move τ α} (hs : s.step m = some s') : s.Made m s' := by
  cases m with
  | enter t access =>
    simp only [step] at hs
    split at hs
    · rename_i hawake
      cases hs
      exact .asked rfl (wish_of_awake hawake) nofun
    · cases hs
  | resume t =>
    simp only [step] at hs
    split at hs
    · rename_i wish sleeper hwish hsleeper
      cases hs
      exact .resumed hwish hsleeper
    · cases hs
  | write t g f =>
    simp only [step] at hs
    split at hs
    · obtain ⟨x, hx, rfl⟩ := Option.map_eq_some_iff.mp hs
      exact .wrote hx
    · cases hs
  | drop t g =>
    simp only [step] at hs
    split at hs
    · split at hs
      · rename_i x hx
        cases hs
        exact .droppedRead hx
      · rename_i x _ hx
        cases hs
        exact .droppedWrite hx
      · cases hs
    · cases hs
  | openGate t =>
    simp only [step] at hs
    split at hs
    · cases hs
      exact .opened rfl rfl
    · cases hs
  | stepOut t g =>
    simp only [step] at hs
    split at hs
    · rename_i hawake
      obtain ⟨x, hx, rfl⟩ := Option.map_eq_some_iff.mp hs
      exact .steppedOut (wish_of_awake hawake) hx
    · cases hs
  | stepBack t =>
    simp only [step] at hs
    split at hs
    · rename_i hawake
      obtain ⟨g, hg, rfl⟩ := Option.map_eq_some_iff.mp hs
      have hback : ∀ k, Wish.back g = .back k → (s.visitors t).inside.head? = some k := by
        intro k hk
        cases hk
        exact hg
      exact .asked rfl (wish_of_awake hawake) hback
    · cases hs
  | panic t | recover t =>
    simp only [step] at hs
    split at hs
    · cases hs
      exact .turned rfl rfl rfl rfl
    · cases hs

end Guarded

end ActorSystem
