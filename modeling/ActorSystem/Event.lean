import ActorSystem.Error
import ActorSystem.Outcome

/-!
# Log events

What the pool and its roles tell the log: a level, a title and named fields, in order. The
events of the pool itself are listed here; a role makes its own.
-/

namespace ActorSystem

inductive Level where
  | error
  | warn
  | info
  | debug
  | trace
  deriving DecidableEq, Inhabited

namespace Level

def name : Level → String
  | error => "ERROR"
  | warn => "WARN"
  | info => "INFO"
  | debug => "DEBUG"
  | trace => "TRACE"

/-- How much detail a level asks for: zero is reserved for none at all. -/
def detail : Level → Nat
  | error => 1
  | warn => 2
  | info => 3
  | debug => 4
  | trace => 5

end Level

/-- One entry of the log. The `origin` is the path by which a filter selects entries. -/
structure Event where
  level : Level
  origin : String
  title : String
  fields : List (String × String)
  deriving DecidableEq, Inhabited

namespace Event

/-! ## Where the pool's events come from -/

def officeOrigin : String := "actor_pool::framework::post_office"

def actorOrigin : String := "actor_pool::framework::actor"

def roleOrigin : String := "actor_pool::framework::role"

def workerOrigin : String := "actor_pool::runtime::worker_pool"

def configOrigin : String := "actor_pool::runtime::config"

/-! ## The post office -/

def addressInUse (a : Address) : Event :=
  ⟨.error, officeOrigin, "Mailbox address already in use", [("address", a.text)]⟩

def mailboxCreated (a : Address) : Event :=
  ⟨.debug, officeOrigin, "Mailbox created", [("address", a.text)]⟩

def unknownAddress (a : Address) : Event :=
  ⟨.warn, officeOrigin, "Post to unknown address", [("address", a.text)]⟩

def addressRevoked (a : Address) : Event :=
  ⟨.debug, officeOrigin, "Address revoked", [("address", a.text)]⟩

/-- `source` is where the mailbox was. -/
def mailboxMoved (source target : Address) : Event :=
  ⟨.debug, officeOrigin, "Mailbox moved", [("from", source.text), ("to", target.text)]⟩

/-! ## The actor table -/

def tableFull (max : Nat) : Event :=
  ⟨.error, workerOrigin, "Actor table is full", [("max", toString max)]⟩

def registered (id : ActorId) (name : String) (size : Nat) : Event :=
  ⟨.info, workerOrigin, "Registered",
    [("actor", toString id), ("name", name), ("size", toString size)]⟩

def unregisterRequested (id : ActorId) : Event :=
  ⟨.info, workerOrigin, "Unregister requested", [("actor", toString id)]⟩

def actorReportedError (worker : Nat) (a : Address) (name : String) : Event :=
  ⟨.warn, workerOrigin, "Actor reported an error",
    [("worker", toString worker), ("actor", a.text), ("name", name)]⟩

def poisonedRemoved (worker poisoned size : Nat) : Event :=
  ⟨.debug, workerOrigin, "Removed poisoned actors",
    [("worker", toString worker), ("poisoned", toString poisoned), ("size", toString size)]⟩

def slotErased (worker size : Nat) : Event :=
  ⟨.debug, workerOrigin, "Removed poisoned actor",
    [("worker", toString worker), ("size", toString size)]⟩

/-! ## One actor -/

def batchDrained (a : Address) (batch : Nat) (outcome : Outcome) : Event :=
  ⟨.debug, actorOrigin, "Batch drained",
    [("actor", a.text), ("batch", toString batch), ("outcome", outcome.name)]⟩

def rolePanicked (a : Address) (panic : String) : Event :=
  ⟨.error, actorOrigin, "Role panicked", [("actor", a.text), ("panic", panic)]⟩

def idOutsideRange (a : Address) (requested : ActorId) : Event :=
  ⟨.warn, actorOrigin, "SetId outside the actor ID range",
    [("actor", a.text), ("requested", toString requested)]⟩

def idRejected (a : Address) (requested : ActorId) (error : Error) : Event :=
  ⟨.warn, actorOrigin, "SetId rejected",
    [("actor", a.text), ("requested", toString requested), ("error", error.message)]⟩

def renumbered (target : Address) (name : String) : Event :=
  ⟨.debug, actorOrigin, "Actor renumbered", [("actor", target.text), ("name", name)]⟩

def actorPoisoned (a : Address) (name : String) : Event :=
  ⟨.debug, actorOrigin, "Actor poisoned", [("actor", a.text), ("name", name)]⟩

def replyWithoutSource (a : Address) : Event :=
  ⟨.warn, roleOrigin, "Reply to a message without a source", [("actor", a.text)]⟩

/-! ## The workers -/

def workerStarted (worker : Nat) : Event :=
  ⟨.info, workerOrigin, "Worker started", [("worker", toString worker)]⟩

def workerStopped (worker : Nat) : Event :=
  ⟨.info, workerOrigin, "Worker stopped", [("worker", toString worker)]⟩

def poolStarted (workers maxActors : Nat) (sweep : String) : Event :=
  ⟨.info, workerOrigin, "Worker pool started",
    [("workers", toString workers), ("max_actors", toString maxActors), ("sweep", sweep)]⟩

def shuttingDown (workers actors : Nat) : Event :=
  ⟨.info, workerOrigin, "Shutting down worker pool",
    [("workers", toString workers), ("actors", toString actors)]⟩

def poolStopped : Event := ⟨.info, workerOrigin, "Worker pool stopped", []⟩

def configLoaded (path : String) (workers : Nat) : Event :=
  ⟨.info, configOrigin, "Loaded runtime config", [("path", path), ("workers", toString workers)]⟩

end Event

end ActorSystem
