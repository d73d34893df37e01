import ActorSystem.Address

/-!
# Messages

A message is an optional sender's address and a body: one of three control messages, which an
actor obeys itself, or a value for its role. The type of the values is a parameter; a type that
can travel as such a value is related to it by `Carries`.

* `splitControl_control`, `splitControl_user`: splitting tells the two kinds of body apart and
  hands a user message back unchanged.
* `get?_of`: what was put in comes out.
-/

namespace ActorSystem

/-- What every actor obeys before its role sees any message. -/
inductive Control where
  | poison
  | setName (name : String)
  | setId (id : ActorId)
  deriving DecidableEq

def Control.inspect : Control → String
  | poison => "Poison"
  | setName name => s!"SetName({Text.quote name})"
  | setId id => s!"SetId({id.inspect})"

/-- What a message says: a control message or a value of `V`. -/
inductive Body (V : Type) where
  | control (c : Control)
  | user (value : V)

/-- Control messages are shown, values are not. -/
def Body.inspect {V : Type} : Body V → String
  | .control c => s!"Control({c.inspect})"
  | .user _ => "User(..)"

structure Message (V : Type) where
  source : Option Address
  body : Body V

/-- Values of `T` travel as values of `V` and can be told from all others. -/
class Carries (V : Type) (T : Type) where
  wrap : T → V
  unwrap : V → Option T
  unwrap_wrap : ∀ t, unwrap (wrap t) = some t

namespace Message

variable {V : Type}

def ofValue (value : V) : Message V := ⟨none, .user value⟩

def ofControl (c : Control) : Message V := ⟨none, .control c⟩

def poison : Message V := ofControl .poison

/-- A message from nobody that carries `t`. -/
def of {T : Type} [Carries V T] (t : T) : Message V := ofValue (Carries.wrap t)

def withSource (m : Message V) (source : Address) : Message V := { m with source := some source }

/-- The same message, from `source` unless it already has a sender. -/
def stamped (m : Message V) (source : Address) : Message V :=
  { m with source := m.source <|> some source }

def isControl (m : Message V) : Bool :=
  match m.body with
  | .control _ => true
  | .user _ => false

def value? (m : Message V) : Option V :=
  match m.body with
  | .control _ => none
  | .user value => some value

def get? (T : Type) [Carries V T] (m : Message V) : Option T := m.value?.bind Carries.unwrap

/-- The control message, whoever sent it; or the user message as it was. -/
def splitControl (m : Message V) : Control ⊕ Message V :=
  match m.body with
  | .control c => .inl c
  | .user _ => .inr m

def inspect (m : Message V) : String :=
  "Message \x7b source: " ++ inspectOption Address.inspect m.source ++
    ", payload: " ++ m.body.inspect ++ " \x7d"

@[simp] theorem splitControl_control (s : Option Address) (c : Control) :
    splitControl (⟨s, .control c⟩ : Message V) = .inl c := rfl

@[simp] theorem splitControl_user (s : Option Address) (value : V) :
    splitControl (⟨s, .user value⟩ : Message V) = .inr ⟨s, .user value⟩ := rfl

@[simp] theorem get?_of {T : Type} [Carries V T] (t : T) : (of t : Message V).get? T = some t :=
  Carries.unwrap_wrap t

end Message

end ActorSystem
