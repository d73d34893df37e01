import ActorSystem.Act
import Mathlib.Logic.Function.Basic

/-!
# Signals

A worker's control block: a stop flag under a mutex, and a condition variable at which nobody but
the worker waits. Waiting gives up the mutex and falls asleep in one step, so that no
notification gets lost between the two; who was notified has to take the mutex again.

A `Site` is a world with the signals of the workers. A `Motion` is one access that a thread makes
to it: an atom of the world, or an operation on one worker's signal.
-/

namespace ActorSystem

structure Signal where
  stop : Bool := false
  /-- Somebody has the mutex. -/
  locked : Bool := false
  /-- The worker sleeps and was not notified. -/
  parked : Bool := false
  deriving DecidableEq

namespace Signal

inductive Op where
  | lock
  | unlock
  | readStop
  | setStop
  /-- Wake the worker, if it sleeps. -/
  | notify
  /-- Give up the mutex and fall asleep. -/
  | park
  /-- Take the mutex again after a notification. -/
  | wake
  deriving DecidableEq

/-- Whether a thread can do this now; it waits as long as it cannot. -/
def admits (s : Signal) : Op → Bool
  | .lock => !s.locked
  | .wake => !s.parked && !s.locked
  | .unlock | .readStop | .setStop | .notify | .park => true

def after (s : Signal) : Op → Signal
  | .lock | .wake => { s with locked := true }
  | .unlock => { s with locked := false }
  | .readStop => s
  | .setStop => { s with stop := true }
  | .notify => { s with parked := false }
  | .park => { s with locked := false, parked := true }

end Signal

structure Site (σ : Signature) where
  world : World σ
  signals : Nat → Signal := fun _ => {}

inductive Motion (σ : Signature) where
  | atom (x : Atom σ)
  /-- What somebody does to the signal of worker `w`. -/
  | signal (w : Nat) (op : Signal.Op)

namespace Motion

variable {σ : Signature}

def Answer : Motion σ → Type
  | atom x => x.Answer
  | signal _ .readStop => Bool
  | signal _ _ => Unit

def answer (x : Motion σ) (s : Site σ) : x.Answer :=
  match x with
  | atom x => x.answer s.world
  | signal w .readStop => (s.signals w).stop
  | signal _ .lock | signal _ .unlock | signal _ .setStop | signal _ .notify | signal _ .park
  | signal _ .wake => ()

def effect (x : Motion σ) (s : Site σ) : Site σ :=
  match x with
  | atom x => { s with world := x.effect s.world }
  | signal w op => { s with signals := Function.update s.signals w ((s.signals w).after op) }

def ready (x : Motion σ) (s : Site σ) : Bool :=
  match x with
  | atom x => x.ready s.world
  | signal w op => (s.signals w).admits op

end Motion

end ActorSystem
