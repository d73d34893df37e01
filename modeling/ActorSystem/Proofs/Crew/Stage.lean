import ActorSystem.Crew

/-!
# Stages

How far a thread has come shows in the accesses it has made for its job. A `Stage` is what is
worth knowing of this: its part in draining an actor (`Turn`), its part in writing the table
(`Desk`), and the actors it has stopped and still has to erase. Each stage allows some accesses
and leads to another one by each of them.

`Obeys s t Q` says that the act `t`, begun in stage `s`, makes only accesses that are allowed
when it makes them, whatever it learns on the way, and ends with a stage of which `Q` holds.

* `Obeys.bind`, `Obeys.mono`: the rules.
* `obeys_of_neutral`: accesses that have no part in any of this.
-/

namespace ActorSystem

variable {σ : Signature} {α β : Type}

/-! ## Draining an actor -/

/-- Where a thread is between taking an actor and letting it go. -/
inductive Turn (σ : Signature) where
  | away
  /-- It has taken the actor. -/
  | begun (a : ActorRef)
  /-- It has counted `size` messages and taken so many of them. -/
  | batch (a : ActorRef) (size taken : Nat)
  /-- The last message that it took is for the role, which does not have it yet. -/
  | holding (a : ActorRef) (size taken : Nat) (m : Message σ.Value)
  /-- The actor has stopped. -/
  | stopped (a : ActorRef)

namespace Turn

/-- The actor that the thread has taken. -/
def actor? : Turn σ → Option ActorRef
  | away => none
  | begun a | batch a _ _ | holding a _ _ _ | stopped a => some a

def after (t : Turn σ) (x : Atom σ) (y : x.Answer) : Turn σ :=
  match t, x, y with
  | t, .claim a, taken => cond taken (begun a) t
  | begun a, .countMail _, n => batch a n 0
  | batch a size k, .takeMail _, some m =>
    if m.isControl then batch a size (k + 1) else holding a size (k + 1) m
  | holding a size k _, .dispatch .., _ => batch a size k
  | batch a _ _, .sicken _, _ => stopped a
  | _, .finish .., _ => away
  | t, _, _ => t

def allows (t : Turn σ) : Atom σ → Prop
  | .claim _ => t = away
  | .countMail a => t = begun a
  | .takeMail a => ∃ size k, t = batch a size k ∧ k < size
  | .dispatch a m => ∃ size k, t = holding a size k m
  | .sicken a => ∃ size k, t = batch a size k
  | .finish a o => (∃ size k, t = batch a size k ∧ o ≠ .poisoned) ∨ (t = stopped a ∧ o = .poisoned)
  | .alter _ => False
  | _ => True

end Turn

/-! ## Writing the table -/

/-- Where a thread is between claiming the table's lock and giving it back. -/
inductive Desk where
  | away
  | writing
  /-- It has seen this size of the table. -/
  | sized (n : Nat)
  /-- It has a new mailbox for an actor, too. -/
  | boxed (n : Nat) (b : BoxRef)
  deriving DecidableEq

namespace Desk

def after (d : Desk) (x : Atom σ) (y : x.Answer) : Desk :=
  match d, x, y with
  | _, .lock .claim, _ => writing
  | _, .lock .leaveWrite, _ => away
  | writing, .tableSize, n => sized n
  | sized n, .createMailbox _, .ok b => boxed n b
  | boxed _ _, .enroll _, _ => writing
  | d, _, _ => d

/-- A new actor needs room and a mailbox of its own. -/
def allows (limit : Nat) (d : Desk) : Atom σ → Prop
  | .lock .claim => d = away
  | .lock .leaveWrite => d ≠ away
  | .enroll x => ∃ n, d = boxed n x.box ∧ n < limit ∧ x.phase = .idle
  | .eraseSick => d = writing
  | .erase _ => d = writing
  | _ => True

end Desk

/-! ## Stages -/

/-- What a thread still has to erase. -/
def debtAfter (debt : List ActorRef) : Atom σ → List ActorRef
  | .sicken a => a :: debt
  | .eraseSick => []
  | .erase a => debt.filter (· ≠ a)
  | _ => debt

theorem mem_debtAfter {debt : List ActorRef} {x : Atom σ} {a : ActorRef}
    (h : a ∈ debtAfter debt x) :
    x = .sicken a ∨ (a ∈ debt ∧ x ≠ .eraseSick ∧ x ≠ .erase a) := by
  cases x with
  | sicken c =>
    rcases List.mem_cons.mp h with rfl | h
    · exact .inl rfl
    · exact .inr ⟨h, nofun, nofun⟩
  | eraseSick => cases h
  | erase c =>
    obtain ⟨h, hne⟩ := List.mem_filter.mp h
    refine .inr ⟨h, nofun, ?_⟩
    rintro ⟨⟩
    simp at hne
  | _ => exact .inr ⟨h, nofun, nofun⟩

structure Stage (σ : Signature) where
  /-- Whether the job is one that may take actors. -/
  drains : Bool := false
  turn : Turn σ := .away
  desk : Desk := .away
  /-- The actors that the thread has stopped and not erased. -/
  debt : List ActorRef := []

namespace Stage

def after (s : Stage σ) (x : Atom σ) (y : x.Answer) : Stage σ :=
  { s with turn := s.turn.after x y, desk := s.desk.after x y, debt := debtAfter s.debt x }

structure Allows (limit : Nat) (s : Stage σ) (x : Atom σ) : Prop where
  turn : s.turn.allows x
  desk : s.desk.allows limit x
  claim : ∀ a, x = .claim a → s.drains
  erase : ∀ a, x = .erase a → a ∈ s.debt

end Stage

/-- Whether a routine takes actors. -/
def Routine.drains : Routine σ → Bool
  | serve _ | slip .. => false
  | drain _ | drainUnlocked _ | sweep .. => true

/-- What a routine that came to `o` leaves to be erased: a sweep erases for itself. -/
def Routine.left : Routine σ → Option Outcome → List ActorRef
  | drain a, some .poisoned | drainUnlocked a, some .poisoned => [a]
  | _, _ => []

def Stage.start (r : Routine σ) : Stage σ := { drains := r.drains }

/-- A look shows the settings, which never change. -/
def Atom.tells (config : Config) : (x : Atom σ) → x.Answer → Prop
  | look, w => w.pool.config = config
  | _, _ => True

/-! ## Acts that obey -/

/-- The act makes only accesses that are allowed, and `Q` holds at its end. -/
def Obeys (config : Config) : Stage σ → Act σ α → (α → Stage σ → Prop) → Prop
  | s, .done a, Q => Q a s
  | s, .ask x next, Q => s.Allows config.maxActors x ∧
    ∀ y, x.tells config y → Obeys config (s.after x y) (next y) Q

namespace Obeys

variable {config : Config} {s : Stage σ} {Q Q' : α → Stage σ → Prop} {R : β → Stage σ → Prop}

theorem pure {a : α} (h : Q a s) : Obeys config s (pure a) Q := h

theorem mono {t : Act σ α} (ht : Obeys config s t Q) (hq : ∀ a s, Q a s → Q' a s) :
    Obeys config s t Q' := by
  induction t generalizing s with
  | done a => exact hq a s ht
  | ask x next ih => exact ⟨ht.1, fun y hy => ih y (ht.2 y hy)⟩

theorem bind {t : Act σ α} {f : α → Act σ β} (ht : Obeys config s t Q)
    (hf : ∀ a s, Q a s → Obeys config s (f a) R) : Obeys config s (t >>= f) R := by
  induction t generalizing s with
  | done a => exact hf a s ht
  | ask x next ih => exact ⟨ht.1, fun y hy => ih y (ht.2 y hy)⟩

theorem atom {x : Atom σ} {Q : x.Answer → Stage σ → Prop}
    (hx : s.Allows config.maxActors x) (hq : ∀ y, x.tells config y → Q y (s.after x y)) :
    Obeys config s (Act.atom x) Q :=
  ⟨hx, hq⟩

end Obeys

/-! ## Accesses without a part in it -/

/-- The access neither drains an actor nor writes or sizes the table, and makes no mailbox. -/
def Atom.neutral : Atom σ → Bool
  | look | report _ | outside _ => true
  | resolve _ | put .. | rekey .. | setAddress .. | revoke .. => true
  | setRole .. | setName .. | setId .. | dropId _ => true
  | lock .enterRead | lock .leaveRead | lock .awaitReaders => true
  | snapshot | slot _ | nextId | reserve _ => true
  | _ => false

/-- What anybody may do to a pool's post office; and what has nothing to do with the pool. -/
def Atom.public : Atom σ → Bool
  | look | report _ | outside _ => true
  | createMailbox _ | resolve _ | put .. | rekey .. | setAddress .. | revoke .. => true
  | _ => false

/-- The outside makes public accesses only. -/
def Company.Civil (company : Company σ) : Prop := ∀ c, (company.outside c).All (·.public)

variable {config : Config} {s : Stage σ}

theorem allows_of_neutral {limit : Nat} {x : Atom σ} (hx : x.neutral) : s.Allows limit x := by
  cases x with
  | lock op => cases op <;> first | exact ⟨trivial, trivial, nofun, nofun⟩ | cases hx
  | _ => first | exact ⟨trivial, trivial, nofun, nofun⟩ | cases hx

theorem after_of_neutral {x : Atom σ} (hx : x.neutral) (y : x.Answer) : s.after x y = s := by
  cases x with
  | lock op => cases op <;> first | rfl | cases hx
  | _ => first | rfl | cases hx

theorem obeys_atom_of_neutral {x : Atom σ} (hx : x.neutral) :
    Obeys config s (Act.atom x) fun _ s' => s' = s :=
  Obeys.atom (allows_of_neutral hx) fun y _ => after_of_neutral hx y

theorem obeys_of_neutral {t : Act σ α} (ht : t.All (·.neutral)) :
    Obeys config s t fun _ s' => s' = s := by
  induction t with
  | done a => rfl
  | ask x next ih =>
    refine ⟨allows_of_neutral ht.1, fun y _ => ?_⟩
    rw [after_of_neutral ht.1]
    exact ih y (ht.2 y)

/-- Away from the table, public accesses are neutral. -/
theorem obeys_of_public {t : Act σ α} (ht : t.All (·.public)) (hs : s.desk = .away) :
    Obeys config s t fun _ s' => s' = s := by
  induction t with
  | done a => rfl
  | ask x next ih =>
    obtain ⟨hx, hnext⟩ := ht
    have hkept : ∀ y, s.after x y = s := by
      intro y
      obtain ⟨drains, turn, desk, debt⟩ := s
      simp only at hs
      subst hs
      cases x <;> first | rfl | cases hx
    have hallows : s.Allows config.maxActors x := by
      cases x <;> first | exact ⟨trivial, trivial, nofun, nofun⟩ | cases hx
    refine ⟨hallows, fun y _ => ?_⟩
    rw [hkept]
    exact ih y (hnext y)

end ActorSystem
