import ActorSystem.Atom

/-!
# Acting on a pool

An `Act` is what one thread does to a world: a dialogue of atoms. The whole pool is written as
acts. `Act.run` carries one out with nobody in between, and `Act.visits` lists the accesses that
it makes on the way; `Crew` lets the acts of many threads mix.

This module holds the smallest acts: single atoms, reporting, and each access to the post office
with the report it makes.

* `run_bind`, `visits_bind`: one act after another.
-/

namespace ActorSystem

/-- What reads and changes a world. -/
abbrev Act (σ : Signature) : Type → Type := Dialogue (Atom.Answer (σ := σ))

/-- An access, and the world just before it. -/
structure Visit (σ : Signature) where
  world : World σ
  atom : Atom σ

namespace Act

variable {σ : Signature} {α β : Type}

/-! ## Carrying out an act -/

/-- What the act comes to when nobody else is about, and the world after it. -/
def run : Act σ α → World σ → α × World σ
  | .done a, w => (a, w)
  | .ask x next, w => run (next (x.answer w)) (x.effect w)

/-- The accesses that the act makes when nobody else is about, oldest first. -/
def visits : Act σ α → World σ → List (Visit σ)
  | .done _, _ => []
  | .ask x next, w => ⟨w, x⟩ :: visits (next (x.answer w)) (x.effect w)

@[simp] theorem run_pure (a : α) (w : World σ) : run (pure a) w = (a, w) := rfl

@[simp] theorem visits_pure (a : α) (w : World σ) : visits (pure a) w = [] := rfl

@[simp] theorem run_bind (t : Act σ α) (f : α → Act σ β) (w : World σ) :
    run (t >>= f) w = run (f (run t w).1) (run t w).2 := by
  induction t generalizing w with
  | done a => rfl
  | ask x next ih => exact ih (x.answer w) (x.effect w)

@[simp] theorem visits_bind (t : Act σ α) (f : α → Act σ β) (w : World σ) :
    visits (t >>= f) w = visits t w ++ visits (f (run t w).1) (run t w).2 := by
  induction t generalizing w with
  | done a => rfl
  | ask x next ih => exact congrArg (_ :: ·) (ih (x.answer w) (x.effect w))

/-! ## Single atoms -/

def atom (x : Atom σ) : Act σ x.Answer := .ask x .done

@[simp] theorem run_atom (x : Atom σ) (w : World σ) : run (atom x) w = (x.answer w, x.effect w) :=
  rfl

@[simp] theorem visits_atom (x : Atom σ) (w : World σ) : visits (atom x) w = [⟨w, x⟩] := rfl

def pool : Act σ (Pool σ) := return (← atom .look).pool

def report (e : Event) : Act σ Unit := atom (.report e)

/-- Any reading and any change at all, for those who look at a world from outside. -/
instance : MonadStateOf (World σ) (Act σ) where
  get := atom .look
  set w := atom (.alter fun _ => w)
  modifyGet f := do
    let (a, w) := f (← atom .look)
    atom (.alter fun _ => w)
    return a

def modifyOffice (f : Office σ.Value → Office σ.Value) : Act σ Unit :=
  atom (.alter (·.modifyOffice f))

/-! ## The post office -/

def createMailbox (address : Address) : Act σ (Except Error BoxRef) := do
  match ← atom (.createMailbox address) with
  | .ok b =>
    report (.mailboxCreated address)
    return .ok b
  | .error e =>
    report (.addressInUse address)
    return .error e

/-- Delivers a letter. The mailbox is found first and gets the letter after that. -/
def post (target : Address) (m : Message σ.Value) : Act σ (Except Error Unit) := do
  match ← atom (.resolve target) with
  | some b =>
    atom (.put b m)
    return .ok ()
  | none =>
    report (.unknownAddress target)
    return .error (.addressNotFound target)

def revokeFor (revoker : Revoker) (address : Address) : Act σ Bool := do
  let removed : Bool ← atom (.revoke revoker address)
  if removed then report (.addressRevoked address)
  return removed

def revoke (address : Address) : Act σ Bool := revokeFor .caller address

/-- Moves a mailbox from where it believes it is to `target`. The registry changes first, the
mailbox's own address after it. -/
def readdress (b : BoxRef) (target : Address) : Act σ (Except Error Unit) := do
  let office := (← pool).office
  let source := office.addressOf b
  if office.closed then return .error (.addressNotFound source)
  match ← atom (.rekey b source target) with
  | .ok () =>
    if source ≠ target then report (.mailboxMoved source target)
    atom (.setAddress b target)
    return .ok ()
  | .error e => return .error e

end Act

end ActorSystem
