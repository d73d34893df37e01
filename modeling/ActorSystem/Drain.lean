import ActorSystem.Registration

/-!
# Draining a mailbox

A worker takes an idle actor, handles as many messages as its mailbox held at that moment, and
lets it go. Control messages are obeyed on the way; a poison message, or a role that answers
`poisoned`, ends the batch and stops the actor for good.

`Company` says how the roles of a signature behave and what the outside does when it is called.
-/

namespace ActorSystem

/-- The roles' behaviour, and what answers their calls. -/
structure Company (σ : Signature) where
  behaviour : Behaviour σ
  outside : (c : σ.Call) → Act σ (σ.Reply c)

namespace Act

variable {σ : Signature}

/-! ## Running a program -/

def answer (company : Company σ) : (r : Request σ) → Act σ r.Answer
  | .post target m => post target m
  | .register role => register (company.behaviour.nameOf role) role
  | .unregister id => unregister id
  | .findByName name => findByName name
  | .log e => report e
  | .call c => company.outside c

/-- Carries out a program, request by request. -/
def interpret {α : Type} (company : Company σ) : Program σ α → Act σ α
  | .done a => return a
  | .ask r next => do interpret company (next (← answer company r))

/-! ## Obeying control messages -/

/-- Stops an actor. Its address goes too, whoever has it by now. -/
def makeSick (a : ActorRef) : Act σ Unit := do
  atom (.sicken a)
  atom (.dropId a)
  let _ ← revokeFor (.actor a) ((← pool).addressOf a)
  let p ← pool
  report (.actorPoisoned (p.addressOf a) (p.nameOf a))

def rename (a : ActorRef) (name : String) : Act σ Unit := atom (.setName a name)

/-- Gives an actor another ID and moves its mailbox there; or changes nothing, if the ID is out
of range, the actor's own address is no longer its own, or the new one is taken. -/
def changeId (a : ActorRef) (id : ActorId) : Act σ Unit := do
  let p ← pool
  let source := p.addressOf a
  let some x := p.actor? a | return
  if id.address.isNamed then report (.idOutsideRange source id)
  else match ← readdress x.box id.address with
    | .ok () =>
      atom (.setId a id)
      reserveId id
      report (.renumbered id.address x.name)
    | .error e => report (.idRejected source id e)

/-! ## One message -/

def dispatch (company : Company σ) (a : ActorRef) (m : Message σ.Value) : Act σ Outcome := do
  let some (role, ctx) ← atom (.dispatch a m) | return .error
  let ending ← interpret company (company.behaviour.handle role ctx m)
  atom (.setRole a ending.role)
  match ending.verdict with
  | .returned _ => pure ()
  | .panicked p => report (.rolePanicked ((← pool).addressOf a) p.message)
  return ending.verdict.outcome

/-- Obeys a control message, or has the role handle the message. The answer is what it adds to
the batch; a control message that does not stop the actor adds nothing. -/
def handleMail (company : Company σ) (a : ActorRef) (m : Message σ.Value) : Act σ Outcome := do
  match m.splitControl with
  | .inl .poison => return .poisoned
  | .inl (.setName name) => rename a name; return .complete
  | .inl (.setId id) => changeId a id; return .complete
  | .inr m => dispatch company a m

/-! ## A batch -/

/-- Handles so many messages. The answer is `none` when the actor stopped on the way, else what
the batch sums up to, starting from `sum`. -/
def consume (company : Company σ) (a : ActorRef) : Nat → Outcome → Act σ (Option Outcome)
  | 0, sum => return some sum
  | n + 1, sum => do
    match ← atom (.takeMail a) with
    | none => return some sum
    | some m =>
      match ← handleMail company a m with
      | .poisoned =>
        makeSick a
        return none
      | o => consume company a n ((← pool).config.batchPolicy.fold sum o)

/-- Handles the messages that are in the mailbox now. -/
def drain (company : Company σ) (a : ActorRef) : Act σ Outcome := do
  let batch : Nat ← atom (.countMail a)
  if batch = 0 then return .skipped
  match ← consume company a batch .complete with
  | none => return .poisoned
  | some outcome =>
    report (.batchDrained ((← pool).addressOf a) batch outcome)
    return outcome

def tryBegin (a : ActorRef) : Act σ Bool := atom (.claim a)

/-- Lets the actor go, unless it has stopped. -/
def finish (a : ActorRef) (outcome : Outcome) : Act σ Unit := atom (.finish a outcome)

/-- Drains an actor, unless it is busy or has stopped. -/
def process (company : Company σ) (a : ActorRef) : Act σ Outcome := do
  if ← tryBegin a then
    let outcome ← drain company a
    finish a outcome
    return outcome
  else return .skipped

/-- The same for a caller inside a lock as a reader, who steps out of it for the time of the
drain. The lock is reached by `step`. -/
def processUnlocked (company : Company σ) (step : LockState.Op → Act σ Unit)
    (a : ActorRef) : Act σ Outcome := do
  if ← tryBegin a then
    step .leaveRead
    let outcome ← drain company a
    step .enterRead
    finish a outcome
    return outcome
  else return .skipped

end Act

end ActorSystem
