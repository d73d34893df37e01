import ActorSystem.Proofs.Act.Leads

/-!
# The upkeep of an invariant

Whatever a pool does is made of a few things: it looks and reports, sends letters, takes an
address away, enlists a new actor, and has the actors that it drains obey. `Upkeep company I J`
asks for one fact about each of these, and from them follows that every routine keeps `I`.

`I who` holds while actor `who` is being drained and `I none` while nobody is. `J who id b` holds
between making mailbox `b` for an actor with ID `id` and enlisting this actor.

* `Upkeep.interpret`: whatever a role or an outsider asks for.
* `Upkeep.drain`: a drain ends with the actor still to be let go, or stopped.
* `Upkeep.all`: routines one after another.
-/

namespace ActorSystem

variable {σ : Signature}

/-- The access only looks, reports, passes letters on or erases; or it changes what nobody but
the role of an actor or a reader of names sees. -/
def Atom.plain : Atom σ → Bool
  | look | report _ | resolve _ | put .. => true
  | countMail _ | takeMail _ | dispatch .. | setRole .. | setName .. => true
  | lock _ | tableSize | snapshot | slot _ | eraseSick | erase _ | nextId => true
  | _ => false

/-- Who is being drained after a drain of `a` that came to `o`, before the actor is let go. -/
def heldAfter (a : ActorRef) (o : Outcome) : Option ActorRef :=
  if o = .poisoned then none else some a

/-- All that the pool does to a new actor that has a mailbox. -/
def Act.enlist (id : ActorId) (size : Nat) (x : Actor σ) : Act σ Unit := do
  reserveId id
  report (.registered id x.name size)
  atom (.enroll x)

open Act

structure Upkeep (company : Company σ) (I : Option ActorRef → Fact σ)
    (J : Option ActorRef → ActorId → BoxRef → Fact σ) : Prop where
  plain : ∀ who x, x.plain → Leads (I who) (atom x) fun _ => I who
  outside : ∀ who c, Leads (I who) (company.outside c) fun _ => I who
  revoke : ∀ who c, Leads (I who) (revoke c) fun _ => I who
  /-- A new actor gets its mailbox at the next ID. -/
  create : ∀ who id, Leads (fun h w => I who h w ∧ w.pool.nextId = id.raw)
    (createMailbox id.address) fun r => match r with
      | .ok b => J who id b
      | .error _ => I who
  enlist : ∀ who id b size x, x.id = some id → x.box = b → x.phase = .idle →
    Leads (J who id b) (enlist id size x) fun _ => I who
  claim : ∀ a, Leads (I none) (tryBegin a) fun taken => I (if taken then some a else none)
  finish : ∀ a o, Leads (I (heldAfter a o)) (finish a o) fun _ => I none
  changeId : ∀ a id, Leads (I (some a)) (changeId a id) fun _ => I (some a)
  makeSick : ∀ a, Leads (I (some a)) (makeSick a) fun _ => I none

namespace Upkeep

variable {company : Company σ} {I : Option ActorRef → Fact σ}
variable {J : Option ActorRef → ActorId → BoxRef → Fact σ} {who : Option ActorRef}
variable (hs : Upkeep company I J)

include hs

theorem report (e : Event) : Leads (I who) (report e) fun _ => I who := hs.plain who _ rfl

theorem lockTable (op : LockState.Op) : Leads (I who) (lockTable op) fun _ => I who :=
  hs.plain who _ rfl

theorem pool : Leads (I who) pool fun _ => I who :=
  (hs.plain who .look rfl).bind fun _ => Leads.pure fun _ _ h => h

/-! ## What may be asked of a pool -/

theorem post (target : Address) (m : Message σ.Value) :
    Leads (I who) (post target m) fun _ => I who := by
  refine (hs.plain who (.resolve target) rfl).bind fun found => ?_
  cases found with
  | some b => exact (hs.plain who (.put b m) rfl).bind fun _ => Leads.pure fun _ _ h => h
  | none => exact (hs.report _).bind fun _ => Leads.pure fun _ _ h => h

theorem register (name : String) (role : σ.Role) :
    Leads (I who) (register name role) fun _ => I who := by
  have hcount : Leads (I who) (atom .nextId) fun n h w => I who h w ∧ w.pool.nextId = n :=
    fun h w hi => ⟨hs.plain who .nextId rfl h w hi, rfl⟩
  refine (hs.lockTable _).bind fun _ => ?_
  refine (hs.lockTable _).bind fun _ => ?_
  refine hs.pool.bind fun p => ?_
  refine (hs.plain who .tableSize rfl).bind fun (size : Nat) => ?_
  dsimp only
  split
  · refine (hs.report _).bind fun _ => ?_
    exact (hs.lockTable _).bind fun _ => Leads.pure fun _ _ h => h
  refine hcount.bind fun n => ?_
  refine (hs.create who ⟨n⟩).bind fun made => ?_
  cases made with
  | error e => exact (hs.lockTable _).bind fun _ => Leads.pure fun _ _ h => h
  | ok b =>
    have henlist := hs.enlist who ⟨n⟩ b (size + 1) { id := some ⟨n⟩, name, box := b, role } rfl rfl rfl
    exact henlist.bind fun _ => (hs.lockTable _).bind fun _ => Leads.pure fun _ _ h => h

theorem findByName (name : String) : Leads (I who) (findByName name) fun _ => I who := by
  refine (hs.lockTable _).bind fun _ => ?_
  refine hs.pool.bind fun p => ?_
  exact (hs.lockTable _).bind fun _ => Leads.pure fun _ _ h => h

theorem unregister (id : ActorId) : Leads (I who) (unregister id) fun _ => I who := by
  refine (hs.post _ _).bind fun r => ?_
  cases r with
  | error e => exact Leads.pure fun _ _ h => h
  | ok =>
    refine (hs.revoke who _).bind fun _ => ?_
    exact (hs.report _).bind fun _ => Leads.pure fun _ _ h => h

theorem answer (r : Request σ) : Leads (I who) (answer company r) fun _ => I who := by
  cases r with
  | post target m => exact hs.post target m
  | register role => exact hs.register _ role
  | unregister id => exact hs.unregister id
  | findByName name => exact hs.findByName name
  | log e => exact hs.report e
  | call c => exact hs.outside who c

theorem interpret {α : Type} (program : Program σ α) :
    Leads (I who) (interpret company program) fun _ => I who := by
  induction program with
  | done a => exact Leads.pure fun _ _ h => h
  | ask r next ih => exact (hs.answer r).bind fun x => ih x

/-! ## A drain -/

theorem dispatch (a : ActorRef) (m : Message σ.Value) :
    Leads (I who) (dispatch company a m) fun _ => I who := by
  refine (hs.plain who (.dispatch a m) rfl).bind fun found => ?_
  rcases found with _ | ⟨role, ctx⟩
  · exact Leads.pure fun _ _ h => h
  refine (hs.interpret _).bind fun ending => ?_
  refine (hs.plain who (.setRole a ending.role) rfl).bind fun _ => ?_
  cases ending.verdict with
  | returned o => exact Leads.pure fun _ _ h => h
  | panicked p =>
    refine hs.pool.bind fun _ => ?_
    exact (hs.report _).bind fun _ => Leads.pure fun _ _ h => h

theorem handleMail (a : ActorRef) (m : Message σ.Value) :
    Leads (I (some a)) (handleMail company a m) fun _ => I (some a) := by
  unfold Act.handleMail
  split
  · exact Leads.pure fun _ _ h => h
  · exact (hs.plain _ _ rfl).bind fun _ => Leads.pure fun _ _ h => h
  · exact (hs.changeId a _).bind fun _ => Leads.pure fun _ _ h => h
  · exact hs.dispatch a _

/-- A batch that the actor survives does not sum up to `poisoned`. -/
theorem consume (a : ActorRef) (n : Nat) {sum : Outcome} (hsum : sum ≠ .poisoned) :
    Leads (I (some a)) (consume company a n sum) fun r h w =>
      match r with
      | none => I none h w
      | some o => o ≠ .poisoned ∧ I (some a) h w := by
  induction n generalizing sum with
  | zero => exact Leads.pure fun _ _ h => ⟨hsum, h⟩
  | succ n ih =>
    refine (hs.plain _ (.takeMail a) rfl).bind fun mail => ?_
    cases mail with
    | none => exact Leads.pure fun _ _ h => ⟨hsum, h⟩
    | some m =>
      refine (hs.handleMail a m).bind fun o => ?_
      by_cases ho : o = .poisoned
      · subst ho
        exact (hs.makeSick a).bind fun _ => Leads.pure fun _ _ h => h
      · have hgoes : Leads (I (some a))
            (do Act.consume company a n ((← Act.pool).config.batchPolicy.fold sum o)) _ :=
          hs.pool.bind fun p => ih (BatchPolicy.fold_ne_poisoned _ hsum ho)
        cases o with
        | poisoned => exact absurd rfl ho
        | skipped | complete | error => exact hgoes

theorem drain (a : ActorRef) :
    Leads (I (some a)) (drain company a) fun o => I (heldAfter a o) := by
  refine (hs.plain _ (.countMail a) rfl).bind fun batch => ?_
  split
  · exact Leads.pure fun _ _ h => h
  refine (hs.consume a batch (by simp)).bind fun r => ?_
  cases r with
  | none => exact Leads.pure fun _ _ h => h
  | some o =>
    by_cases ho : o = .poisoned
    · intro h w hi
      exact absurd ho hi.1
    refine Leads.mono ?_ (fun _ _ hi => hi.2) fun _ _ _ hi => hi
    refine hs.pool.bind fun p => (hs.report _).bind fun _ => Leads.pure fun h w hi => ?_
    rw [heldAfter, if_neg ho]
    exact hi

theorem process (a : ActorRef) : Leads (I none) (process company a) fun _ => I none := by
  refine (hs.claim a).bind fun taken => ?_
  cases taken with
  | false => exact Leads.pure fun _ _ h => h
  | true =>
    refine (hs.drain a).bind fun o => ?_
    exact (hs.finish a o).bind fun _ => Leads.pure fun _ _ h => h

theorem processUnlocked (a : ActorRef) :
    Leads (I none) (processUnlocked company Act.lockTable a) fun _ => I none := by
  refine (hs.claim a).bind fun taken => ?_
  cases taken with
  | false => exact Leads.pure fun _ _ h => h
  | true =>
    refine (hs.lockTable _).bind fun _ => ?_
    refine (hs.drain a).bind fun o => ?_
    refine (hs.lockTable _).bind fun _ => ?_
    exact (hs.finish a o).bind fun _ => Leads.pure fun _ _ h => h

/-! ## Sweeps -/

theorem reportError (worker : Nat) (a : ActorRef) :
    Leads (I who) (reportError worker a) fun _ => I who :=
  hs.pool.bind fun _ => hs.report _

theorem drainAll (worker : Nat) (actors : List ActorRef) :
    Leads (I none) (drainAll company worker actors) fun _ => I none := by
  induction actors with
  | nil => exact Leads.pure fun _ _ h => h
  | cons a rest ih =>
    refine (hs.process a).bind fun o => ?_
    cases o with
    | poisoned => exact ih.bind fun _ => Leads.pure fun _ _ h => h
    | error => exact (hs.reportError worker a).bind fun _ => ih
    | skipped | complete => exact ih

theorem removeSick : Leads (I none) removeSick fun _ => I none := by
  refine (hs.lockTable _).bind fun _ => ?_
  refine (hs.lockTable _).bind fun _ => ?_
  refine (hs.plain none .eraseSick rfl).bind fun _ => ?_
  refine (hs.plain none .tableSize rfl).bind fun size => ?_
  exact (hs.lockTable _).bind fun _ => Leads.pure fun _ _ h => h

theorem snapshot : Leads (I none) snapshot fun _ => I none := by
  refine (hs.lockTable _).bind fun _ => ?_
  refine (hs.plain none .snapshot rfl).bind fun actors => ?_
  exact (hs.lockTable _).bind fun _ => Leads.pure fun _ _ h => h

theorem sweepDeferred (worker : Nat) :
    Leads (I none) (sweepDeferred company worker) fun _ => I none := by
  refine hs.snapshot.bind fun actors => ?_
  refine (hs.drainAll worker actors).bind fun poisoned => ?_
  split
  · exact hs.removeSick.bind fun _ => hs.report _
  · exact Leads.pure fun _ _ h => h

theorem removeActor (worker : Nat) (a : ActorRef) :
    Leads (I none) (removeActor worker a) fun _ => I none := by
  refine (hs.lockTable _).bind fun _ => ?_
  refine (hs.lockTable _).bind fun _ => ?_
  refine (hs.lockTable _).bind fun _ => ?_
  refine (hs.plain none (.erase a) rfl).bind fun _ => ?_
  refine (hs.plain none .tableSize rfl).bind fun size => ?_
  refine (hs.report _).bind fun _ => ?_
  exact (hs.lockTable _).bind fun _ => hs.lockTable _

theorem visitSlot (worker cursor : Nat) :
    Leads (I none) (visitSlot company worker cursor) fun _ => I none := by
  refine (hs.plain none (.slot cursor) rfl).bind fun found => ?_
  cases found with
  | none => exact Leads.pure fun _ _ h => h
  | some a =>
    refine (hs.processUnlocked a).bind fun o => ?_
    cases o with
    | poisoned => exact (hs.removeActor worker a).bind fun _ => Leads.pure fun _ _ h => h
    | error => exact (hs.reportError worker a).bind fun _ => Leads.pure fun _ _ h => h
    | skipped | complete => exact Leads.pure fun _ _ h => h

theorem visitSlots (worker fuel cursor : Nat) :
    Leads (I none) (visitSlots company worker fuel cursor) fun _ => I none := by
  induction fuel generalizing cursor with
  | zero => exact Leads.pure fun _ _ h => h
  | succ fuel ih =>
    refine (hs.visitSlot worker cursor).bind fun r => ?_
    cases r with
    | none => exact Leads.pure fun _ _ h => h
    | some cursor => exact ih cursor

theorem walk (worker limit : Nat) : Leads (I none) (walk company worker limit) fun _ => I none := by
  refine (hs.lockTable _).bind fun _ => ?_
  exact (hs.visitSlots worker limit 0).bind fun _ => hs.lockTable _

theorem sweepWithin (worker limit : Nat) :
    Leads (I none) (sweepWithin company worker limit) fun _ => I none := by
  refine hs.pool.bind fun p => ?_
  split
  · exact hs.sweepDeferred worker
  · exact hs.walk worker limit

/-! ## Routines -/

theorem act (r : Routine σ) : Leads (I none) (r.act company) fun _ => I none := by
  cases r with
  | serve program => exact (hs.interpret program).bind fun _ => Leads.pure fun _ _ h => h
  | slip a m =>
    refine hs.pool.bind fun p => ?_
    split
    · exact (hs.plain none _ rfl).bind fun _ => Leads.pure fun _ _ h => h
    · exact Leads.pure fun _ _ h => h
  | drain a => exact (hs.process a).bind fun _ => Leads.pure fun _ _ h => h
  | drainUnlocked a =>
    refine (hs.lockTable _).bind fun _ => ?_
    refine (hs.processUnlocked a).bind fun o => ?_
    exact (hs.lockTable _).bind fun _ => Leads.pure fun _ _ h => h
  | sweep worker limit =>
    exact (hs.sweepWithin worker limit).bind fun _ => Leads.pure fun _ _ h => h

theorem all (rs : List (Routine σ)) : Leads (I none) (Routine.all company rs) fun _ => I none := by
  induction rs with
  | nil => exact Leads.pure fun _ _ h => h
  | cons r rs ih => exact (hs.act r).bind fun _ => ih

end Upkeep

end ActorSystem
