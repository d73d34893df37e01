import ActorSystem.Dialogue
import ActorSystem.Event
import ActorSystem.Message

/-!
# What a role does with a message

A role answers a message with a `Program`: a dialogue whose questions are requests to the pool.
Only requests reach the pool, so whatever a role does is a sequence of them; every branch is
finite, so every role returns or panics.

A `Signature` fixes the types that the pool leaves open: the roles, the values in messages, and
what lies outside the pool, which roles reach by calls of their own.

* `Context.reply_of_source`: a reply is a post to the sender of the message.
-/

namespace ActorSystem

structure Signature where
  Role : Type
  Value : Type
  Env : Type
  /-- What roles may ask of the outside. -/
  Call : Type
  Reply : Call → Type

/-- What a role panicked with. -/
inductive Panic where
  | text (s : String)
  /-- A value that is not a text. -/
  | opaqueValue
  deriving DecidableEq

def Panic.message : Panic → String
  | text s => s
  | opaqueValue => "non-string panic payload"

inductive Verdict where
  | returned (o : Outcome)
  | panicked (p : Panic)
  deriving DecidableEq

/-- What a batch counts: a panic is an error. -/
def Verdict.outcome : Verdict → Outcome
  | returned o => o
  | panicked _ => .error

inductive Request (σ : Signature) where
  | post (target : Address) (m : Message σ.Value)
  | register (role : σ.Role)
  | unregister (id : ActorId)
  | findByName (name : String)
  | log (e : Event)
  | call (c : σ.Call)

def Request.Answer {σ : Signature} : Request σ → Type
  | post .. => Except Error Unit
  | register _ => Except Error ActorId
  | unregister _ => Except Error Unit
  | findByName _ => Option ActorId
  | log _ => Unit
  | call c => σ.Reply c

abbrev Program (σ : Signature) : Type → Type := Dialogue (Request.Answer (σ := σ))

namespace Program

variable {σ : Signature}

/-! ## Single requests -/

def log (e : Event) : Program σ Unit := .ask (.log e) .done

def call (c : σ.Call) : Program σ (σ.Reply c) := .ask (.call c) .done

end Program

/-- What a role knows of the actor that runs it, for one dispatch. -/
structure Context where
  /-- `none` once the actor has stopped. -/
  id : Option ActorId
  name : String
  address : Address
  deriving DecidableEq

namespace Context

variable {σ : Signature}

def inspect (ctx : Context) : String :=
  "Context \x7b id: " ++ inspectOption ActorId.inspect ctx.id ++
    ", name: " ++ Text.quote ctx.name ++ " \x7d"

/-- Posts as the running actor: the message carries its address unless it has a sender. -/
def post (ctx : Context) (target : Address) (m : Message σ.Value) :
    Program σ (Except Error Unit) :=
  .ask (.post target (m.stamped ctx.address)) .done

def postNamed (ctx : Context) (name : String) (m : Message σ.Value) :
    Program σ (Except Error Unit) :=
  ctx.post (Address.ofName name) m

def reply (ctx : Context) (question m : Message σ.Value) : Program σ (Except Error Unit) :=
  match question.source with
  | some source => ctx.post source m
  | none => do
    Program.log (.replyWithoutSource ctx.address)
    return .error .noSource

def register (_ : Context) (role : σ.Role) : Program σ (Except Error ActorId) :=
  .ask (.register role) .done

def unregister (_ : Context) (id : ActorId) : Program σ (Except Error Unit) :=
  .ask (.unregister id) .done

def findByName (_ : Context) (name : String) : Program σ (Option ActorId) :=
  .ask (.findByName name) .done

theorem reply_of_source (ctx : Context) {question : Message σ.Value} {a : Address}
    (h : question.source = some a) (m : Message σ.Value) :
    ctx.reply question m = ctx.post a m := by
  simp [reply, h]

end Context

/-- The end of one dispatch: the role as it is now, and the verdict. -/
structure Ending (σ : Signature) where
  role : σ.Role
  verdict : Verdict

/-- How a role of this signature behaves: its name at registration, and what it does with a
message. -/
structure Behaviour (σ : Signature) where
  nameOf : σ.Role → String
  handle : σ.Role → Context → Message σ.Value → Program σ (Ending σ)

end ActorSystem
