import ActorSystem.Duty

/-!
# Workers

A worker sweeps, looks whether there is work left, and sleeps when there is none. It looks at its
stop flag before each sweep and whenever it is up after one. The look for work and the falling
asleep are under the worker's own mutex; the sweep is not.

A `Place` is a point in this loop, and `Place.next` is the loop: the motion that the worker makes
there, and where each answer leads.

* `hasPendingWork_run`: the look for work, undisturbed, finds work exactly if there is some.
-/

namespace ActorSystem

variable {σ : Signature}

/-! ## The look for work -/

namespace Act

def needsProcessing (a : ActorRef) : Act σ Bool := do
  if (← pool).isIdle a then
    let waiting : Nat ← atom (.countMail a)
    return waiting ≠ 0
  else return false

def anyNeedsProcessing : List ActorRef → Act σ Bool
  | [] => return false
  | a :: rest => do if ← needsProcessing a then return true else anyNeedsProcessing rest

/-- The look for work of a reader of the table. The table stays as it is for its time, and what
the actors do goes on. -/
def search : Act σ Bool := do
  let actors : List ActorRef ← atom .snapshot
  let found ← anyNeedsProcessing actors
  lockTable .leaveRead
  return found

def hasPendingWork : Act σ Bool := do
  lockTable .enterRead
  search

theorem run_needsProcessing (a : ActorRef) (w : World σ) :
    (needsProcessing a).run w = (w.pool.needsProcessing a, w) := by
  show run (if w.pool.isIdle a then _ else _) w = _
  unfold Pool.needsProcessing
  by_cases hidle : w.pool.isIdle a
  · rw [if_pos hidle, hidle, Bool.true_and]
    show (decide ((w.pool.mailOf a).length ≠ 0), w) = _
    cases w.pool.mailOf a <;> rfl
  · rw [if_neg hidle, Bool.eq_false_iff.mpr hidle, Bool.false_and]
    rfl

theorem run_anyNeedsProcessing (actors : List ActorRef) (w : World σ) :
    (anyNeedsProcessing actors).run w = (actors.any w.pool.needsProcessing, w) := by
  induction actors with
  | nil => rfl
  | cons a rest ih =>
    rw [anyNeedsProcessing, run_bind, run_needsProcessing, List.any_cons]
    cases w.pool.needsProcessing a with
    | true => rfl
    | false => exact ih

theorem hasPendingWork_run (w : World σ) :
    (hasPendingWork.run w).1 = w.pool.hasPendingWork := by
  let inside : World σ := (Atom.lock .enterRead).effect w
  show (run (do
    let found ← anyNeedsProcessing w.pool.table
    lockTable .leaveRead
    return found) inside).1 = _
  rw [run_bind, run_anyNeedsProcessing]
  rfl

end Act

/-! ## The loop -/

/-- Where a worker is. -/
inductive Place (σ : Signature) where
  /-- At the beginning. -/
  | hired
  /-- Before a sweep, to look at the flag. -/
  | head
  | peek
  | peeked (stop : Bool)
  /-- About to sweep. -/
  | ready
  | sweeping (x : Motion σ) (next : x.Answer → Duty σ Unit)
  | swept
  /-- After a sweep or a nap, with the mutex. -/
  | test
  /-- About to look for work. -/
  | enter
  | look (x : Atom σ) (next : x.Answer → Act σ Bool)
  /-- There is work, or the flag is set. -/
  | check
  | checked (stop : Bool)
  /-- There is no work. -/
  | doze
  | asleep
  | quitting
  | gone

namespace Place

def ofSweep : Duty σ Unit → Place σ
  | .done () => swept
  | .ask x next => sweeping x next

def ofLook : Act σ Bool → Place σ
  | .done true => check
  | .done false => doze
  | .ask x next => look x next

/-- What worker `w` does next, unless it is about to sweep or gone. -/
def next (w : Nat) : Place σ → Option ((x : Motion σ) × (x.Answer → Place σ))
  | hired => some ⟨.atom (.report (.workerStarted w)), fun _ => head⟩
  | head => some ⟨.signal w .lock, fun _ => peek⟩
  | peek => some ⟨.signal w .readStop, peeked⟩
  | peeked stop => some ⟨.signal w .unlock, fun _ => if stop then quitting else ready⟩
  | ready => none
  | sweeping x next => some ⟨x, fun y => ofSweep (next y)⟩
  | swept => some ⟨.signal w .lock, fun _ => test⟩
  | test => some ⟨.signal w .readStop, fun stop : Bool => if stop then check else enter⟩
  | enter => some ⟨.atom (.lock .enterRead), fun _ => ofLook Act.search⟩
  | look x next => some ⟨.atom x, fun y => ofLook (next y)⟩
  | check => some ⟨.signal w .readStop, checked⟩
  | checked stop => some ⟨.signal w .unlock, fun _ => if stop then quitting else head⟩
  | doze => some ⟨.signal w .park, fun _ => asleep⟩
  | asleep => some ⟨.signal w .wake, fun _ => test⟩
  | quitting => some ⟨.atom (.report (.workerStopped w)), fun _ => gone⟩
  | gone => none

end Place

end ActorSystem
