import ActorSystem.Proofs.Act.Makeup
import ActorSystem.Proofs.Crew.Stage

/-!
# What a drain is made of

Whatever a role or an outsider asks of the pool comes to accesses of a few kinds (`asked`). To
these a drain of an actor adds its own, by which it takes this actor's mail and lets it obey
(`serves`). No drain takes another actor or erases one.

* `interpret_asked`: what is asked of the pool.
* `handleMail_all`, `drain_all`: what is true of what the roles do and of the drain's own accesses
  is true of all.
* `processUnlocked_handles`: a drain with its beginning and its end.
-/

namespace ActorSystem

variable {σ : Signature} {α : Type}

namespace Atom

/-- What a registration is made of. -/
def registers : Atom σ → Bool
  | look | report _ | lock _ | tableSize | nextId | createMailbox _ | reserve _ => true
  | enroll x => x.phase = .idle
  | _ => false

/-- What may come of a request: anybody's business with the post office, and a registration. -/
def asked : Atom σ → Bool
  | outside _ | resolve _ | put .. | rekey .. | setAddress .. | revoke .. => true
  | x => x.registers

/-- What a drain of `a` does by itself for a message that it has taken, up to its stopping. -/
def minds (a : ActorRef) : Atom σ → Bool
  | look | report _ | rekey .. | setAddress .. | reserve _ => true
  | setRole c _ | setName c _ | setId c _ => c = a
  | _ => false

/-- What a drain of `a` does by itself. -/
def serves (a : ActorRef) : Atom σ → Bool
  | countMail c | takeMail c | dispatch c _ | sicken c | dropId c | revoke (.actor c) _ => c = a
  | x => x.minds a

/-- What may come of a drain of `a`, with taking it and letting it go. -/
def handles (a : ActorRef) : Atom σ → Bool
  | claim c | finish c _ => c = a
  | x => x.asked || x.serves a

variable {a : ActorRef} {x : Atom σ}

theorem asked_of_public (hx : x.public) : x.asked := by
  cases x <;> first | rfl | cases hx

theorem asked_of_registers (hx : x.registers) : x.asked := by
  cases x <;> first | exact hx | cases hx

theorem serves_of_minds (hx : x.minds a) : x.serves a := by
  cases x <;> first | exact hx | cases hx

theorem handles_of_asked (hx : x.asked) : x.handles a := by
  cases x with
  | claim c | finish c o => cases hx
  | _ => simp only [handles, hx, Bool.true_or]

theorem handles_of_serves (hx : x.serves a) : x.handles a := by
  cases x with
  | claim c | finish c o => cases hx
  | _ => simp only [handles, hx, Bool.or_true]

end Atom

namespace Act

variable {company : Company σ} {a : ActorRef}

/-! ## What is asked of the pool -/

theorem post_asked (target : Address) (m : Message σ.Value) : (post target m).All (·.asked) := by
  refine ⟨rfl, fun found => ?_⟩
  cases found with
  | some b => exact ⟨rfl, fun _ => trivial⟩
  | none => exact ⟨rfl, fun _ => trivial⟩

theorem revokeFor_asked (r : Revoker) (c : Address) : (revokeFor r c : Act σ _).All (·.asked) :=
  all_revokeFor (P := fun x => x.asked) (fun _ => rfl) rfl

theorem register_registers (name : String) (role : σ.Role) :
    (register name role).All (·.registers) := by
  refine ⟨rfl, fun _ => ⟨rfl, fun _ => ⟨rfl, fun (w : World σ) => ⟨rfl, fun (size : Nat) => ?_⟩⟩⟩⟩
  change Dialogue.All _ (if w.pool.config.maxActors ≤ size then _ else _)
  split
  · exact ⟨rfl, fun _ => ⟨rfl, fun _ => trivial⟩⟩
  refine ⟨rfl, fun (n : UInt64) => ?_⟩
  have hbox : (createMailbox (σ := σ) (ActorId.mk n).address).All (·.registers) :=
    all_createMailbox (P := fun x => x.registers) (fun _ => rfl) rfl
  change Dialogue.All _ (createMailbox (ActorId.mk n).address >>= _)
  refine Dialogue.all_bind hbox fun made => ?_
  cases made with
  | error e => exact ⟨rfl, fun _ => trivial⟩
  | ok b => exact ⟨rfl, fun _ => ⟨rfl, fun _ => ⟨rfl, fun _ => ⟨rfl, fun _ => trivial⟩⟩⟩⟩

theorem findByName_asked (name : String) : (findByName name : Act σ _).All (·.asked) :=
  ⟨rfl, fun _ => ⟨rfl, fun _ => ⟨rfl, fun _ => trivial⟩⟩⟩

theorem unregister_asked (id : ActorId) : (unregister id : Act σ _).All (·.asked) := by
  refine Dialogue.all_bind (post_asked _ _) fun r => ?_
  cases r with
  | error e => trivial
  | ok u => exact Dialogue.all_bind (revokeFor_asked _ _) fun _ => ⟨rfl, fun _ => trivial⟩

theorem answer_asked (hc : company.Civil) (r : Request σ) : (answer company r).All (·.asked) := by
  cases r with
  | post target m => exact post_asked target m
  | register role => exact (register_registers _ role).mono fun _ => Atom.asked_of_registers
  | unregister id => exact unregister_asked id
  | findByName name => exact findByName_asked name
  | log e => exact ⟨rfl, fun _ => trivial⟩
  | call c => exact (hc c).mono fun _ => Atom.asked_of_public

theorem interpret_asked (hc : company.Civil) (program : Program σ α) :
    (interpret company program).All (·.asked) := by
  induction program with
  | done a => trivial
  | ask r next ih => exact Dialogue.all_bind (answer_asked hc r) ih

theorem interpret_all {P : Atom σ → Prop} {R : Request σ → Prop}
    (hanswer : ∀ r, R r → (answer company r).All P) {program : Program σ α}
    (hprogram : program.All R) : (interpret company program).All P := by
  induction program with
  | done a => trivial
  | ask r next ih => exact Dialogue.all_bind (hanswer r hprogram.1) fun x => ih x (hprogram.2 x)

/-! ## One message -/

/-- What is left of a dispatch when the role has been found. -/
def afterDispatch (company : Company σ) (a : ActorRef) :
    Option (σ.Role × Context) → Message σ.Value → Act σ Outcome
  | none, _ => return .error
  | some (role, ctx), m => do
    let ending ← interpret company (company.behaviour.handle role ctx m)
    atom (.setRole a ending.role)
    match ending.verdict with
    | .returned _ => pure ()
    | .panicked p => report (.rolePanicked ((← pool).addressOf a) p.message)
    return ending.verdict.outcome

theorem dispatch_eq (company : Company σ) (a : ActorRef) (m : Message σ.Value) :
    dispatch company a m =
      .ask (.dispatch a m) fun (found : Option (σ.Role × Context)) =>
        afterDispatch company a found m := by
  refine congrArg (Dialogue.ask _) (funext fun (found : Option (σ.Role × Context)) => ?_)
  cases found with
  | none => rfl
  | some found => rfl

section

variable {P : Atom σ → Prop}

theorem changeId_all (hminds : ∀ x : Atom σ, x.minds a → P x) (id : ActorId) :
    (changeId a id).All P := by
  have hid : P (.setId a id) := hminds _ (decide_eq_true rfl)
  exact all_changeId (hminds _ rfl) (fun _ => hminds _ rfl) (fun _ _ => hminds _ rfl)
    (fun _ => hminds _ rfl) hid (hminds _ rfl)

variable (hrole : ∀ role ctx m, (interpret company (company.behaviour.handle role ctx m)).All P)

include hrole

theorem afterDispatch_all (hminds : ∀ x : Atom σ, x.minds a → P x)
    (found : Option (σ.Role × Context)) (m : Message σ.Value) :
    (afterDispatch company a found m).All P := by
  cases found with
  | none => trivial
  | some found =>
    refine Dialogue.all_bind (hrole found.1 found.2 m) fun ending => ?_
    refine ⟨hminds _ (decide_eq_true rfl), fun _ => ?_⟩
    change Dialogue.All _ (do
      match ending.verdict with
      | .returned _ => pure ()
      | .panicked p => report (.rolePanicked ((← pool).addressOf a) p.message)
      return ending.verdict.outcome)
    cases ending.verdict with
    | returned o => trivial
    | panicked p => exact ⟨hminds _ rfl, fun _ => ⟨hminds _ rfl, fun _ => trivial⟩⟩

theorem handleMail_all (hminds : ∀ x : Atom σ, x.minds a → P x) {m : Message σ.Value}
    (hdispatch : P (.dispatch a m)) : (handleMail company a m).All P := by
  obtain ⟨source, body⟩ := m
  cases body with
  | user value =>
    change (dispatch company a _).All _
    rw [dispatch_eq]
    exact ⟨hdispatch, fun found => afterDispatch_all hrole hminds found _⟩
  | control c =>
    cases c with
    | poison => trivial
    | setName name => exact ⟨hminds _ (decide_eq_true rfl), fun _ => trivial⟩
    | setId id => exact Dialogue.all_bind (changeId_all hminds id) fun _ => trivial

end

/-! ## A batch -/

/-- What is left of a batch when a message has been handled. -/
def afterMail (company : Company σ) (a : ActorRef) (n : Nat) (sum : Outcome) :
    Outcome → Act σ (Option Outcome)
  | .poisoned => do
    makeSick a
    return none
  | o => do consume company a n ((← pool).config.batchPolicy.fold sum o)

theorem consume_succ (company : Company σ) (a : ActorRef) (n : Nat) (sum : Outcome) :
    consume company a (n + 1) sum =
      .ask (.takeMail a) fun (mail : Option (Message σ.Value)) =>
        match mail with
        | none => .done (some sum)
        | some m => handleMail company a m >>= afterMail company a n sum := by
  refine congrArg (Dialogue.ask _) (funext fun (mail : Option (Message σ.Value)) => ?_)
  cases mail with
  | none => rfl
  | some m =>
    refine congrArg (handleMail company a m >>= ·) (funext fun o => ?_)
    cases o <;> rfl

/-- What is left of a drain when the batch is over. -/
def afterBatch (a : ActorRef) (batch : Nat) : Option Outcome → Act σ Outcome
  | none => return .poisoned
  | some outcome => do
    report (.batchDrained ((← pool).addressOf a) batch outcome)
    return outcome

theorem drain_eq (company : Company σ) (a : ActorRef) :
    drain company a = .ask (.countMail a) fun (batch : Nat) =>
      if batch = 0 then .done .skipped
      else consume company a batch .complete >>= afterBatch a batch := by
  refine congrArg (Dialogue.ask _) (funext fun (batch : Nat) => ?_)
  change (if batch = 0 then _ else _) = _
  refine congrArg (ite (batch = 0) (Dialogue.done Outcome.skipped)) ?_
  refine congrArg (consume company a batch .complete >>= ·) (funext fun r => ?_)
  cases r <;> rfl

section

variable {P : Atom σ → Prop}
variable (hrole : ∀ role ctx m, (interpret company (company.behaviour.handle role ctx m)).All P)

include hrole

theorem consume_all (hserves : ∀ x : Atom σ, x.serves a → P x) (n : Nat) (sum : Outcome) :
    (consume company a n sum).All P := by
  have hself : ∀ {x : Atom σ}, x.serves a → P x := fun {x} hx => hserves x hx
  induction n generalizing sum with
  | zero => trivial
  | succ n ih =>
    rw [consume_succ]
    refine ⟨hself (decide_eq_true rfl), fun (mail : Option (Message σ.Value)) => ?_⟩
    cases mail with
    | none => trivial
    | some m =>
      have hmail : (handleMail company a m).All P :=
        handleMail_all hrole (fun _ hx => hself (Atom.serves_of_minds hx))
          (hself (decide_eq_true rfl))
      refine Dialogue.all_bind hmail fun o => ?_
      cases o with
      | poisoned =>
        have hsick : (makeSick a).All P := by
          refine all_makeSick (hself rfl) (fun _ => hself rfl) ?_ ?_ fun _ => ?_ <;>
            exact hself (decide_eq_true rfl)
        exact Dialogue.all_bind hsick fun _ => trivial
      | skipped | complete | error => exact ⟨hself rfl, fun _ => ih _⟩

theorem drain_all (hserves : ∀ x : Atom σ, x.serves a → P x) : (drain company a).All P := by
  rw [drain_eq]
  refine ⟨hserves _ (decide_eq_true rfl), fun (batch : Nat) => ?_⟩
  dsimp only
  split
  · trivial
  refine Dialogue.all_bind (consume_all hrole hserves batch _) fun r => ?_
  cases r with
  | none => trivial
  | some o => exact ⟨hserves _ rfl, fun _ => ⟨hserves _ rfl, fun _ => trivial⟩⟩

end

theorem drain_handles (hc : company.Civil) (a : ActorRef) :
    (drain company a).All fun x => x.handles a ∧ ∀ c, x ≠ .claim c := by
  refine drain_all (fun role ctx m => ?_) fun x hx => ⟨Atom.handles_of_serves hx, fun c => ?_⟩
  · refine (interpret_asked hc _).mono fun x hx => ⟨Atom.handles_of_asked hx, fun c => ?_⟩
    rintro rfl
    cases hx
  · rintro rfl
    cases hx

/-! ## A whole drain -/

theorem processUnlocked_all {P : Atom σ → Prop} (hclaim : P (.claim a))
    (hfinish : ∀ o, P (.finish a o)) {step : LockState.Op → Act σ Unit}
    (hstep : ∀ op, (step op).All P) (hdrain : (drain company a).All P) :
    (processUnlocked company step a).All P := by
  have hbegin : (tryBegin a : Act σ Bool).All P := ⟨hclaim, fun _ => trivial⟩
  refine Dialogue.all_bind hbegin fun taken => ?_
  cases taken with
  | false => trivial
  | true =>
    refine Dialogue.all_bind (hstep _) fun _ => Dialogue.all_bind hdrain fun o => ?_
    exact Dialogue.all_bind (hstep _) fun _ => ⟨hfinish o, fun _ => trivial⟩

theorem processUnlocked_handles (hc : company.Civil) {step : LockState.Op → Act σ Unit}
    (hstep : ∀ op, (step op).All (·.handles a)) :
    (processUnlocked company step a).All (·.handles a) :=
  processUnlocked_all (decide_eq_true rfl) (fun _ => decide_eq_true rfl) hstep
    ((drain_handles hc a).mono fun _ hx => hx.1)

end Act

end ActorSystem
