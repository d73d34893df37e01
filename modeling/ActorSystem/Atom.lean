import ActorSystem.World

/-!
# Atoms

Threads meet in a world, and an `Atom` is one access that a thread makes to it: nothing that
another thread does comes between its parts. Whatever the pool does is made of atoms, whether
one thread works alone or others work beside it.

* `effect` and `answer` say what an atom changes and what the thread learns from it.
* `ready` says whether the thread can make the access now. Only an empty mailbox and the lock
  around the table keep a thread waiting.
-/

namespace ActorSystem

/-- For whose sake an address is revoked. -/
inductive Revoker where
  /-- Whoever called for it. -/
  | caller
  /-- An actor that has stopped. -/
  | actor (a : ActorRef)
  deriving DecidableEq

inductive Atom (σ : Signature) where
  /-- A glance at everything. -/
  | look
  | report (e : Event)
  /-- A change to what lies outside of the pool. -/
  | outside (f : σ.Env → σ.Env)
  /-- Any other change. The pool itself makes none of these. -/
  | alter (f : World σ → World σ)
  -- the post office
  | createMailbox (address : Address)
  | resolve (address : Address)
  | put (b : BoxRef) (m : Message σ.Value)
  | rekey (b : BoxRef) (source target : Address)
  | setAddress (b : BoxRef) (address : Address)
  | revoke (revoker : Revoker) (address : Address)
  -- one actor
  /-- Take the actor for a drain, if it is idle. -/
  | claim (a : ActorRef)
  | countMail (a : ActorRef)
  | takeMail (a : ActorRef)
  /-- Find the role that a message is for, and what it may know. -/
  | dispatch (a : ActorRef) (m : Message σ.Value)
  | setRole (a : ActorRef) (role : σ.Role)
  | setName (a : ActorRef) (name : String)
  | setId (a : ActorRef) (id : ActorId)
  | sicken (a : ActorRef)
  | dropId (a : ActorRef)
  /-- The end of a drain: let the actor go, unless it has stopped. -/
  | finish (a : ActorRef) (o : Outcome)
  -- the actor table
  | lock (op : LockState.Op)
  | tableSize
  | snapshot
  | slot (n : Nat)
  | enroll (x : Actor σ)
  | eraseSick
  | erase (a : ActorRef)
  -- the counter of IDs
  | nextId
  | reserve (id : ActorId)

namespace Atom

variable {σ : Signature}

/-- What a thread learns from an access. -/
def Answer : Atom σ → Type
  | look => World σ
  | createMailbox _ => Except Error BoxRef
  | resolve _ => Option BoxRef
  | rekey .. => Except Error Unit
  | revoke .. => Bool
  | claim _ => Bool
  | countMail _ => Nat
  | takeMail _ => Option (Message σ.Value)
  | dispatch .. => Option (σ.Role × Context)
  | tableSize => Nat
  | snapshot => List ActorRef
  | slot _ => Option ActorRef
  | nextId => UInt64
  | _ => Unit

def answer (x : Atom σ) (w : World σ) : x.Answer :=
  match x with
  | look => w
  | createMailbox address => (w.pool.office.create address).map (·.1)
  | resolve address => (w.pool.office.resolve address).1
  | rekey b source target => (w.pool.office.rekey b source target).map fun _ => ()
  | revoke _ address => (w.pool.office.revoke address).1
  | claim a => w.pool.isIdle a
  | countMail a => (w.pool.mailOf a).length
  | takeMail a => (w.pool.mailOf a).head?
  | dispatch a _ => (w.pool.actor? a).map fun x => (x.role, w.pool.contextOf a)
  | tableSize => w.pool.table.length
  | snapshot => w.pool.table
  | slot n => w.pool.table[n]?
  | nextId => w.pool.nextId
  | report _ | outside _ | alter _ | put .. | setAddress .. | setRole .. | setName .. | setId ..
  | sicken _ | dropId _ | finish .. | lock _ | enroll _ | eraseSick | erase _ | reserve _ => ()

def effect (x : Atom σ) (w : World σ) : World σ :=
  match x with
  | report e => w.report e
  | outside f => { w with env := f w.env }
  | alter f => f w
  | createMailbox address =>
    match w.pool.office.create address with
    | .ok (_, office) => w.modifyOffice fun _ => office
    | .error _ => w
  | resolve address => w.modifyOffice fun o => (o.resolve address).2
  | put b m => w.modifyOffice (·.put b m)
  | rekey b source target =>
    match w.pool.office.rekey b source target with
    | .ok office => w.modifyOffice fun _ => office
    | .error _ => w
  | setAddress b address => w.modifyOffice (·.modifyBox b fun box => { box with address })
  | revoke _ address => w.modifyOffice fun o => (o.revoke address).2
  | claim a =>
    if w.pool.isIdle a then w.modifyActor a fun x => { x with phase := .processing } else w
  | takeMail a =>
    match (w.pool.actor? a).bind fun x => w.pool.office.poll x.box with
    | some (_, office) => w.modifyOffice fun _ => office
    | none => w
  | setRole a role => w.modifyActor a fun x => { x with role }
  | setName a name => w.modifyActor a fun x => { x with name }
  | setId a id => w.modifyActor a fun x => { x with id := some id }
  | sicken a => w.modifyActor a fun x => { x with phase := .sick }
  | dropId a => w.modifyActor a fun x => { x with id := none }
  | finish a o => if o = .poisoned then w else w.modifyActor a fun x => { x with phase := .idle }
  | lock op => w.modifyPool fun p => { p with tableLock := p.tableLock.after op }
  | enroll x =>
    w.modifyPool fun p =>
      { p with actors := p.actors.push x, table := p.table ++ [p.actors.size] }
  | eraseSick => w.modifyPool fun p => { p with table := p.table.filter fun a => !p.isSick a }
  | erase a => w.modifyPool fun p => { p with table := p.table.erase a }
  | reserve id => w.modifyPool fun p => { p with nextId := max p.nextId (id.raw + 1) }
  | look | countMail _ | dispatch .. | tableSize | snapshot | slot _ | nextId => w

/-- Whether the access can be made now. A thread whose access is not ready waits. -/
def ready (x : Atom σ) (w : World σ) : Bool :=
  match x with
  | takeMail a => !(w.pool.mailOf a).isEmpty
  | lock op => w.pool.tableLock.admits op
  | _ => true

end Atom

end ActorSystem
