import ActorSystem.Act
import ActorSystem.Moves

/-!
# Districts

Separate post offices, and what those can do to them who hold a handle or a mailbox. Handles can
be copied; with the last handle the registry goes, and the mailboxes stay. An owner of a mailbox
needs no handle for what is done to the mailbox itself.

An errand is one order at one office, carried out from beginning to end, or a new office. A list
of errands is one way in which things may happen.
-/

namespace ActorSystem

variable {σ : Signature}

/-! ## Orders -/

/-- A post office in its world, and how many handles lead to it. -/
structure Branch (σ : Signature) where
  world : World σ
  handles : Nat := 1

inductive Order (σ : Signature) where
  -- with a handle
  | create (a : Address)
  | post (a : Address) (m : Message σ.Value)
  | revoke (a : Address)
  | contains (a : Address)
  | copyHandle
  | dropHandle
  -- with a mailbox
  | readdress (b : BoxRef) (target : Address)
  | put (b : BoxRef) (m : Message σ.Value)
  | poll (b : BoxRef)
  | discard (b : BoxRef)

namespace Order

def createNamed (name : String) : Order σ := .create (.ofName name)

def postNamed (name : String) (m : Message σ.Value) : Order σ := .post (.ofName name) m

end Order

namespace Act

/-- Whether a live mailbox is registered here. The entry of one that is gone goes with it. -/
def contains (a : Address) : Act σ Bool := return (← atom (.resolve a)).isSome

def put (b : BoxRef) (m : Message σ.Value) : Act σ Unit := atom (.put b m)

/-- Takes the oldest letter, if there is one. -/
def poll (b : BoxRef) : Act σ (Option (Message σ.Value)) := do
  match (← pool).office.poll b with
  | none => return none
  | some (m, office) =>
    modifyOffice fun _ => office
    return some m

def discard (b : BoxRef) : Act σ Unit := modifyOffice (·.discard b)

def closeOffice : Act σ Unit := modifyOffice Office.close

end Act

namespace Branch

/-- A new office with one handle. -/
def new (config : Config) (env : σ.Env) : Branch σ := { world := .empty config env }

abbrev office (x : Branch σ) : Office σ.Value := x.world.pool.office

/-- Whether there is somebody who can give the order. -/
def takes (x : Branch σ) : Order σ → Bool
  | .create _ | .post .. | .revoke _ | .contains _ | .copyHandle | .dropHandle => 0 < x.handles
  | .readdress b _ | .put b _ | .poll b | .discard b => x.office.isOwned b

def after {α : Type} (x : Branch σ) (t : Act σ α) : Branch σ :=
  { x with world := (t.run x.world).2 }

def dropHandle (x : Branch σ) : Branch σ :=
  if x.handles ≤ 1 then { x.after Act.closeOffice with handles := 0 }
  else { x with handles := x.handles - 1 }

def obey (x : Branch σ) : Order σ → Branch σ
  | .create a => x.after (Act.createMailbox a)
  | .post a m => x.after (Act.post a m)
  | .revoke a => x.after (Act.revoke a)
  | .contains a => x.after (Act.contains a)
  | .copyHandle => { x with handles := x.handles + 1 }
  | .dropHandle => x.dropHandle
  | .readdress b target => x.after (Act.readdress b target)
  | .put b m => x.after (Act.put b m)
  | .poll b => x.after (Act.poll b)
  | .discard b => x.after (Act.discard b)

end Branch

/-! ## Errands -/

abbrev District (σ : Signature) := Array (Branch σ)

inductive Errand (σ : Signature) where
  | found (config : Config) (env : σ.Env)
  | give (i : Nat) (order : Order σ)

namespace District

/-- The district after an errand, or nothing if nobody can run it. -/
def step (d : District σ) : Errand σ → Option (District σ)
  | .found config env => some (d.push (.new config env))
  | .give i order =>
    match d[i]? with
    | none => none
    | some x => if x.takes order then some (d.modify i (·.obey order)) else none

variable {d d' : District σ}

/-- All that an errand can be. -/
theorem step_cases {e : Errand σ} (h : step d e = some d') :
    (∃ config env, e = .found config env ∧ d' = d.push (.new config env)) ∨
    (∃ i order x, e = .give i order ∧ d[i]? = some x ∧ x.takes order ∧
      d' = d.modify i (·.obey order)) := by
  cases e with
  | found config env => exact .inl ⟨config, env, rfl, (Option.some.inj h).symm⟩
  | give i order =>
    simp only [step] at h
    split at h
    · cases h
    · rename_i x hx
      split at h
      · exact .inr ⟨i, order, x, rfl, hx, ‹_›, (Option.some.inj h).symm⟩
      · cases h

/-- The district after these errands, one after another. -/
def play (d : District σ) (es : List (Errand σ)) : Option (District σ) := Moves.play step d es

end District

end ActorSystem
