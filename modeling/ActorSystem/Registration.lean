import ActorSystem.Act

/-!
# Registering and unregistering

An actor is registered at the end of the table, under the next ID and at the address that equals
it. Unregistering only asks: it leaves a poison message and takes the address away; the sweep
that sees the actor stop erases it.
-/

namespace ActorSystem.Act

variable {σ : Signature}

def reserveId (id : ActorId) : Act σ Unit := atom (.reserve id)

def lockTable (op : LockState.Op) : Act σ Unit := atom (.lock op)

/-- Makes an actor of `role`, under its own name, as the writer of the table. The counter moves
only when there is a mailbox for the actor. -/
def register (name : String) (role : σ.Role) : Act σ (Except Error ActorId) := do
  lockTable .claim
  lockTable .awaitReaders
  let limit := (← pool).config.maxActors
  let size : Nat ← atom .tableSize
  if limit ≤ size then
    report (.tableFull limit)
    lockTable .leaveWrite
    return .error (.tableFull limit)
  let id : ActorId := ⟨← atom .nextId⟩
  match ← createMailbox id.address with
  | .error e =>
    lockTable .leaveWrite
    return .error e
  | .ok box =>
    reserveId id
    report (.registered id name (size + 1))
    atom (.enroll { id := some id, name, box, role })
    lockTable .leaveWrite
    return .ok id

/-- The ID of the first healthy actor of this name, found as a reader of the table. -/
def findByName (name : String) : Act σ (Option ActorId) := do
  lockTable .enterRead
  let id := (← pool).findByName name
  lockTable .leaveRead
  return id

/-- Posts a poison message to the address of `id` and revokes the address. -/
def unregister (id : ActorId) : Act σ (Except Error Unit) := do
  match ← post id.address .poison with
  | .error _ => return .error (.actorNotFound id)
  | .ok () =>
    let _ ← revoke id.address
    report (.unregisterRequested id)
    return .ok ()

end ActorSystem.Act
