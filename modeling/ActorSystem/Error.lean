import ActorSystem.Address

/-!
# Errors

What can go wrong in the pool and its post office. Each cause is a constructor; its wording is
`Error.message`, its structured form `Error.inspect`.
-/

namespace ActorSystem

inductive Error where
  /-- A live mailbox already has this address. -/
  | addressInUse (address : Address)
  | addressNotFound (address : Address)
  /-- A reply was asked for and nobody sent the message. -/
  | noSource
  | actorNotFound (id : ActorId)
  | tableFull (max : Nat)
  | workerSpawn (reason : String)
  | workerPanicked (worker : Nat)
  | config (reason : String)
  deriving DecidableEq

namespace Error

def message : Error → String
  | addressInUse a => s!"Address already in use: {a}"
  | addressNotFound a => s!"No mailbox at address: {a}"
  | noSource => "Message has no source to reply to"
  | actorNotFound id => s!"Actor not found: {id}"
  | tableFull max => s!"Actor table is full ({max} actors)"
  | workerSpawn reason => s!"Failed to spawn worker thread: {reason}"
  | workerPanicked worker => s!"Worker {worker} panicked"
  | config reason => s!"Invalid configuration: {reason}"

instance : ToString Error := ⟨message⟩

/-- The cause by its name, with what it is about in brackets. -/
def inspect : Error → String
  | addressInUse a => s!"AddressInUse({a.inspect})"
  | addressNotFound a => s!"AddressNotFound({a.inspect})"
  | noSource => "NoSource"
  | actorNotFound id => s!"ActorNotFound({id.inspect})"
  | tableFull max => "TableFull \x7b max: " ++ toString max ++ " \x7d"
  | workerSpawn reason => s!"WorkerSpawn({Text.quote reason})"
  | workerPanicked worker => s!"WorkerPanicked({worker})"
  | config reason => s!"Config({Text.quote reason})"

end Error

end ActorSystem
