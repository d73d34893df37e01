import ActorSystem.Roles.Echo
import ActorSystem.Roles.Counter
import ActorSystem.Roles.Player

/-!
# The values of the ensemble

The ensemble is one instance of the open types of a pool, wide enough to try everything: plain
values of many kinds, the values of the sample roles, tasks, and scripts for roles that do as
they are told.

* `kind_wrap`: a value says of what kind it is.
-/

namespace ActorSystem.Ensemble

/-- A piece of work: it leaves a note in the journal and ends as it is told. -/
structure Task where
  label : String
  verdict : Verdict
  deriving DecidableEq

def Task.inspect (_ : Task) : String := "Task(..)"

/-- A text that is a constant of the program, other than a text of the kind `String`. -/
structure Literal where
  text : String
  deriving DecidableEq

/-- The kinds of value. Values of two kinds are never taken for each other. -/
inductive Kind where
  | int32
  | int64
  | uint8
  | uint32
  | bool
  | unit
  | text
  | literal
  | actorId
  | ball
  | command
  | total
  | gameOver
  | task
  | script
  deriving DecidableEq

/-- A role to be cast. A mock says which kind of value it records. -/
inductive Casting where
  | mock (name key : String) (kind : Kind) (script : List Outcome) (fallback : Outcome)
  | echo
  | counter (start : Int64)
  | player (p : Player)
  | taskRunner (name : String)
  | scripted (key : String) (name : Option String)

/-- An address, or the running actor's own. -/
inductive Target where
  | self
  | address (a : Address)

/-- An ID, or the one that equals the running actor's address. -/
inductive Whom where
  | self
  | id (id : ActorId)

mutual

inductive Value where
  | int32 (n : Int32)
  | int64 (n : Int64)
  | uint8 (n : UInt8)
  | uint32 (n : UInt32)
  | bool (b : Bool)
  | unit
  | text (s : String)
  | literal (s : Literal)
  | actorId (id : ActorId)
  | ball (b : Ball)
  | command (c : CounterCommand)
  | total (t : Total)
  | gameOver (g : GameOver)
  | task (t : Task)
  | script (s : Script)

/-- Actions to perform, and the text in which they were written. -/
inductive Script where
  | mk (written : String) (actions : List Action)

inductive Action where
  /-- Say what is known of the running actor. -/
  | who
  /-- Say who sent the message. -/
  | source
  | post (target : Target) (m : Message Value)
  | postNamed (name : String) (m : Message Value)
  /-- Answer the message with the script. -/
  | reply (m : Message Value)
  | register (c : Casting)
  | unregister (whom : Whom)
  | find (name : String)
  /-- A whole sweep, as another thread might do it at that moment. -/
  | sweep
  /-- One drain of the actor in this slot, as another thread might do it. -/
  | process (slot : Nat)
  | len
  | pending
  | readers
  | revoke (target : Target)
  | contains (target : Target)
  | table
  /-- Stop here with this outcome. -/
  | ret (o : Outcome)
  | panic (p : Panic)

end

namespace Value

def kind : Value → Kind
  | int32 _ => .int32
  | int64 _ => .int64
  | uint8 _ => .uint8
  | uint32 _ => .uint32
  | bool _ => .bool
  | unit => .unit
  | text _ => .text
  | literal _ => .literal
  | actorId _ => .actorId
  | ball _ => .ball
  | command _ => .command
  | total _ => .total
  | gameOver _ => .gameOver
  | task _ => .task
  | script _ => .script

def ofKind? (k : Kind) (v : Value) : Option Value := if v.kind = k then some v else none

instance : Carries Value String where
  wrap := text
  unwrap | text s => some s | _ => none
  unwrap_wrap _ := rfl

instance : Carries Value Ball where
  wrap := ball
  unwrap | ball b => some b | _ => none
  unwrap_wrap _ := rfl

instance : Carries Value CounterCommand where
  wrap := command
  unwrap | command c => some c | _ => none
  unwrap_wrap _ := rfl

instance : Carries Value Total where
  wrap := total
  unwrap | total t => some t | _ => none
  unwrap_wrap _ := rfl

instance : Carries Value GameOver where
  wrap := gameOver
  unwrap | gameOver g => some g | _ => none
  unwrap_wrap _ := rfl

instance : Carries Value Task where
  wrap := task
  unwrap | task t => some t | _ => none
  unwrap_wrap _ := rfl

instance : Carries Value Script where
  wrap := script
  unwrap | script s => some s | _ => none
  unwrap_wrap _ := rfl

theorem ofKind?_kind (v : Value) : v.ofKind? v.kind = some v := by simp [ofKind?]

end Value

def Script.written : Script → String
  | .mk written _ => written

def Script.actions : Script → List Action
  | .mk _ actions => actions

def Action.name : Action → String
  | who => "who"
  | source => "source"
  | post .. => "post"
  | postNamed .. => "post_named"
  | reply _ => "reply"
  | register _ => "register"
  | unregister _ => "unregister"
  | find _ => "find"
  | sweep => "sweep"
  | process _ => "process"
  | len => "len"
  | pending => "pending"
  | readers => "readers"
  | revoke _ => "revoke"
  | contains _ => "contains"
  | table => "table"
  | ret _ => "ret"
  | panic _ => "panic"

def valueOfKind? (k : Kind) (m : Message Value) : Option Value := m.value?.bind (·.ofKind? k)

end ActorSystem.Ensemble
