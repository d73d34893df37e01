import ActorSystem.Proofs.Crew.Stage
import ActorSystem.Worker

/-!
# Grips on the table's lock

What a thread has of the lock around the table is its `Grip`. A grip allows some accesses and
becomes another one by each of them: who has a grip does not ask for another one, does not wait
for mail and posts no letter, since a letter leads to the workers' mutexes.

`t.Follows` is the rule for any bookkeeping of this kind, and `Keeps g t` says that the act `t`,
begun with grip `g`, follows the rules of grips whatever it learns on the way, and ends with the
grip that it began with.

* `Follows.bind`, `Follows.mono`: the rules.
* `register_keeps`, `interpret_keeps`, `drain_keeps`: what is asked of the pool, and a drain.
* `sweepWithin_keeps`: a sweep by either strategy.
* `search_grips`: the look for work, which gives up the grip at its end.
-/

namespace ActorSystem

/-! ## Bookkeeping -/

namespace Dialogue

variable {Q S α β : Type} {Answer : Q → Type}

/-- Each question is allowed when it is asked, whatever the answers are, and `R` holds at the
end. -/
def Follows (allows : S → Q → Prop) (after : S → (q : Q) → Answer q → S) :
    S → Dialogue Answer α → (α → S → Prop) → Prop
  | s, .done a, R => R a s
  | s, .ask q next, R => allows s q ∧ ∀ y, Follows allows after (after s q y) (next y) R

namespace Follows

variable {allows : S → Q → Prop} {after : S → (q : Q) → Answer q → S} {s : S}
  {R R' : α → S → Prop} {d : Dialogue Answer α}

theorem mono (hd : d.Follows allows after s R) (h : ∀ a s, R a s → R' a s) :
    d.Follows allows after s R' := by
  induction d generalizing s with
  | done a => exact h a s hd
  | ask q next ih => exact ⟨hd.1, fun y => ih y (hd.2 y)⟩

theorem bind {f : α → Dialogue Answer β} {T : β → S → Prop} (hd : d.Follows allows after s R)
    (hf : ∀ a s, R a s → (f a).Follows allows after s T) :
    (d.bind f).Follows allows after s T := by
  induction d generalizing s with
  | done a => exact hf a s hd
  | ask q next ih => exact ⟨hd.1, fun y => ih y (hd.2 y)⟩

end Follows

end Dialogue

variable {σ : Signature} {α β : Type}

/-! ## Grips -/

inductive Grip where
  | away
  | reading
  /-- It has the claim and waits for the readers. -/
  | claiming
  | writing
  /-- It writes, and has a mailbox for the actor that it is about to register. -/
  | boxed (b : BoxRef)
  deriving DecidableEq

namespace Grip

/-- The writers inside, whatever else they have. -/
def inside : Grip → Bool
  | writing | boxed _ => true
  | away | reading | claiming => false

/-- The writers, inside or not. -/
def claims : Grip → Bool
  | claiming | writing | boxed _ => true
  | away | reading => false

def after (g : Grip) (x : Atom σ) (y : x.Answer) : Grip :=
  match g, x, y with
  | _, .lock .enterRead, _ => reading
  | _, .lock .leaveRead, _ => away
  | _, .lock .claim, _ => claiming
  | _, .lock .awaitReaders, _ => writing
  | _, .lock .leaveWrite, _ => away
  | writing, .createMailbox _, .ok b => boxed b
  | _, .enroll _, _ => writing
  | g, _, _ => g

/-- What a thread with this grip may do; only those who sweep let go of actors. -/
def allows (sweeps : Bool) (g : Grip) : Atom σ → Prop
  | .lock .enterRead | .lock .claim | .takeMail _ | .put .. => g = away
  | .lock .leaveRead => g = reading
  | .lock .awaitReaders => g = claiming
  | .lock .leaveWrite => g.inside
  | .enroll x => g = boxed x.box
  | .finish .. => sweeps
  | .alter _ => False
  | _ => True

end Grip

/-- The access is allowed with every grip and changes none. -/
def Atom.aloof : Atom σ → Bool
  | look | report _ | outside _ | resolve _ | rekey .. | setAddress .. | revoke .. => true
  | claim _ | countMail _ | dispatch .. | setRole .. | setName .. | setId .. | sicken _
  | dropId _ => true
  | tableSize | snapshot | slot _ | eraseSick | erase _ | nextId | reserve _ => true
  | _ => false

/-- The access is allowed without a grip and gives none. -/
def Atom.mild (x : Atom σ) : Bool :=
  x.aloof || match x with
    | createMailbox _ | put .. | takeMail _ => true
    | _ => false

theorem Atom.mild_of_public {x : Atom σ} (hx : x.public) : x.mild := by
  cases x <;> first | rfl | cases hx

namespace Act

variable {sweeps : Bool} {g g' : Grip} {R : α → Grip → Prop} {T : β → Grip → Prop}

abbrev Grips (sweeps : Bool) (g : Grip) (t : Act σ α) (R : α → Grip → Prop) : Prop :=
  t.Follows (Grip.allows sweeps) Grip.after g R

abbrev Keeps (sweeps : Bool) (g : Grip) (t : Act σ α) : Prop :=
  Grips sweeps g t fun _ g' => g' = g

theorem Grips.bind {t : Act σ α} {f : α → Act σ β} (ht : Grips sweeps g t R)
    (hf : ∀ a g, R a g → Grips sweeps g (f a) T) : Grips sweeps g (t >>= f) T :=
  Dialogue.Follows.bind ht hf

theorem Keeps.bind {t : Act σ α} {f : α → Act σ β} (ht : Keeps sweeps g t)
    (hf : ∀ a, Grips sweeps g (f a) T) : Grips sweeps g (t >>= f) T := by
  refine Grips.bind ht ?_
  rintro a _ rfl
  exact hf a

theorem grips_atom {x : Atom σ} (hx : g.allows sweeps x) (h : ∀ y, g.after x y = g') :
    Grips sweeps g (atom x) fun _ g => g = g' :=
  ⟨hx, h⟩

theorem keeps_pure (a : α) : Keeps sweeps g (pure a : Act σ α) := rfl

/-! ### Accesses that have no part in it -/

theorem allows_of_aloof {x : Atom σ} (hx : x.aloof) : g.allows sweeps x := by
  cases x <;> trivial

theorem after_of_aloof {x : Atom σ} (hx : x.aloof) (y : x.Answer) : g.after x y = g := by
  cases x <;> first | (cases g <;> rfl) | cases hx

theorem keeps_atom {x : Atom σ} (hx : x.aloof) : Keeps sweeps g (atom x) :=
  grips_atom (allows_of_aloof hx) (after_of_aloof hx)

theorem keeps_of_aloof {t : Act σ α} (ht : t.All (·.aloof)) : Keeps sweeps g t := by
  induction t with
  | done a => rfl
  | ask x next ih =>
    refine ⟨allows_of_aloof ht.1, fun y => ?_⟩
    rw [after_of_aloof ht.1]
    exact ih y (ht.2 y)

theorem keeps_of_mild {t : Act σ α} (ht : t.All (·.mild)) : Keeps sweeps .away t := by
  induction t with
  | done a => rfl
  | ask x next ih =>
    have hallows : Grip.away.allows sweeps x := by
      have hx := ht.1
      cases x <;> trivial
    have hafter : ∀ y, Grip.away.after x y = .away := by
      have hx := ht.1
      cases x <;> first | exact fun _ => rfl | cases hx
    refine ⟨hallows, fun y => ?_⟩
    rw [hafter]
    exact ih y (ht.2 y)

theorem keeps_public {t : Act σ α} (ht : t.All (·.public)) : Keeps sweeps .away t :=
  keeps_of_mild (ht.mono fun _ => Atom.mild_of_public)

/-! ### The post office -/

theorem report_keeps (e : Event) : Keeps sweeps g (report e : Act σ Unit) := keeps_atom rfl

theorem pool_keeps : Keeps sweeps g (pool : Act σ (Pool σ)) :=
  keeps_of_aloof ⟨rfl, fun _ => trivial⟩

theorem lockTable_grips {op : LockState.Op} (hop : g.allows sweeps (Atom.lock op : Atom σ))
    (h : ∀ y, g.after (Atom.lock op : Atom σ) y = g') :
    Grips sweeps g (lockTable op : Act σ Unit) fun _ g => g = g' :=
  grips_atom hop h

theorem post_keeps (target : Address) (m : Message σ.Value) :
    Keeps sweeps .away (post target m) := by
  refine keeps_of_mild ⟨rfl, fun found => ?_⟩
  cases found with
  | some b => exact ⟨rfl, fun _ => trivial⟩
  | none => exact ⟨rfl, fun _ => trivial⟩

/-- A writer that makes a mailbox keeps it at hand. -/
theorem createMailbox_grips (a : Address) :
    Grips sweeps .writing (createMailbox a : Act σ _) fun r g => g = match r with
      | .ok b => .boxed b
      | .error _ => .writing := by
  refine ⟨trivial, fun r => ?_⟩
  cases r with
  | ok b => exact ⟨trivial, fun _ => rfl⟩
  | error e => exact ⟨trivial, fun _ => rfl⟩

theorem revokeFor_keeps (r : Revoker) (a : Address) :
    Keeps sweeps g (revokeFor r a : Act σ Bool) := by
  refine keeps_of_aloof ⟨rfl, fun removed => ?_⟩
  cases removed with
  | true => exact ⟨rfl, fun _ => trivial⟩
  | false => trivial

theorem readdress_keeps (b : BoxRef) (a : Address) :
    Keeps sweeps g (readdress b a : Act σ _) := by
  refine Keeps.bind pool_keeps fun p => ?_
  dsimp only
  split
  · exact keeps_pure _
  refine Keeps.bind (keeps_atom (x := .rekey b _ a) rfl) fun r => ?_
  cases r with
  | error e => exact keeps_pure _
  | ok =>
    dsimp only
    split
    · refine Keeps.bind (report_keeps _) fun _ => ?_
      exact Keeps.bind (keeps_atom (x := .setAddress b a) rfl) fun _ => keeps_pure _
    · exact Keeps.bind (keeps_atom (x := .setAddress b a) rfl) fun _ => keeps_pure _

/-! ### Registering and unregistering -/

theorem register_keeps (name : String) (role : σ.Role) :
    Keeps sweeps .away (register name role) := by
  have hleave : ∀ {γ : Type} (r : γ) {h : Grip}, h.inside → Grips sweeps h (do
      lockTable .leaveWrite
      return r : Act σ γ) fun _ g => g = .away := fun r _ hin =>
    Grips.bind (lockTable_grips hin fun _ => rfl) fun _ _ hg => hg
  refine Grips.bind (lockTable_grips rfl fun _ => rfl) ?_
  rintro _ _ rfl
  refine Grips.bind (lockTable_grips rfl fun _ => rfl) ?_
  rintro _ _ rfl
  refine Keeps.bind pool_keeps fun p => ?_
  refine Keeps.bind (keeps_atom (x := .tableSize) rfl) fun (n : Nat) => ?_
  dsimp only
  split
  · exact Keeps.bind (report_keeps _) fun _ => hleave _ rfl
  refine Keeps.bind (keeps_atom (x := .nextId) rfl) fun id => ?_
  refine Grips.bind (createMailbox_grips _) ?_
  rintro made _ rfl
  cases made with
  | error e => exact hleave _ rfl
  | ok b =>
    refine Keeps.bind (keeps_atom (x := .reserve _) rfl) fun _ => ?_
    refine Keeps.bind (report_keeps _) fun _ => ?_
    refine Grips.bind (grips_atom (x := .enroll _) rfl fun _ => rfl) ?_
    rintro _ _ rfl
    exact hleave _ rfl

theorem findByName_keeps (name : String) : Keeps sweeps .away (findByName name : Act σ _) := by
  refine Grips.bind (lockTable_grips rfl fun _ => rfl) ?_
  rintro _ _ rfl
  refine Keeps.bind pool_keeps fun p => ?_
  exact Grips.bind (lockTable_grips rfl fun _ => rfl) fun _ _ hg => hg

theorem unregister_keeps (id : ActorId) : Keeps sweeps .away (unregister id : Act σ _) := by
  refine Keeps.bind (post_keeps _ _) fun r => ?_
  cases r with
  | error e => exact keeps_pure _
  | ok =>
    refine Keeps.bind (revokeFor_keeps _ _) fun _ => ?_
    exact Keeps.bind (report_keeps _) fun _ => keeps_pure _

/-! ### Roles at work -/

variable {company : Company σ}

theorem answer_keeps (hc : company.Civil) (r : Request σ) :
    Keeps sweeps .away (answer company r) := by
  cases r with
  | post target m => exact post_keeps target m
  | register role => exact register_keeps _ role
  | unregister id => exact unregister_keeps id
  | findByName name => exact findByName_keeps name
  | log e => exact report_keeps e
  | call c => exact keeps_public (hc c)

theorem interpret_keeps (hc : company.Civil) (program : Program σ α) :
    Keeps sweeps .away (interpret company program) := by
  induction program with
  | done a => exact keeps_pure a
  | ask r next ih => exact Keeps.bind (answer_keeps hc r) ih

theorem dispatch_keeps (hc : company.Civil) (a : ActorRef) (m : Message σ.Value) :
    Keeps sweeps .away (dispatch company a m) := by
  refine Keeps.bind (keeps_atom (x := .dispatch a m) rfl) fun found => ?_
  rcases found with _ | ⟨role, ctx⟩
  · exact keeps_pure _
  refine Keeps.bind (interpret_keeps hc _) fun ending => ?_
  refine Keeps.bind (keeps_atom (x := .setRole a ending.role) rfl) fun _ => ?_
  cases ending.verdict with
  | returned o => exact keeps_pure _
  | panicked p =>
    refine Keeps.bind pool_keeps fun q => ?_
    exact Keeps.bind (report_keeps _) fun _ => keeps_pure _

/-! ### A drain -/

theorem makeSick_keeps (a : ActorRef) : Keeps sweeps g (makeSick a : Act σ Unit) := by
  refine Keeps.bind (keeps_atom (x := .sicken a) rfl) fun _ => ?_
  refine Keeps.bind (keeps_atom (x := .dropId a) rfl) fun _ => ?_
  refine Keeps.bind pool_keeps fun p => ?_
  refine Keeps.bind (revokeFor_keeps _ _) fun _ => ?_
  exact Keeps.bind pool_keeps fun p => report_keeps _

theorem changeId_keeps (a : ActorRef) (id : ActorId) :
    Keeps sweeps g (changeId a id : Act σ Unit) := by
  refine Keeps.bind pool_keeps fun p => ?_
  dsimp only
  split
  · split
    · exact report_keeps _
    refine Keeps.bind (readdress_keeps _ _) fun r => ?_
    cases r with
    | error e => exact report_keeps _
    | ok =>
      refine Keeps.bind (keeps_atom (x := .setId a id) rfl) fun _ => ?_
      refine Keeps.bind (keeps_atom (x := .reserve id) rfl) fun _ => ?_
      exact report_keeps _
  · exact keeps_pure _

theorem handleMail_keeps (hc : company.Civil) (a : ActorRef) (m : Message σ.Value) :
    Keeps sweeps .away (handleMail company a m) := by
  obtain ⟨source, body⟩ := m
  cases body with
  | user value => exact dispatch_keeps hc a _
  | control c =>
    cases c with
    | poison => exact keeps_pure _
    | setName name =>
      exact Keeps.bind (keeps_atom (x := .setName a name) rfl) fun _ => keeps_pure _
    | setId id => exact Keeps.bind (changeId_keeps a id) fun _ => keeps_pure _

theorem consume_keeps (hc : company.Civil) (a : ActorRef) (n : Nat) (sum : Outcome) :
    Keeps sweeps .away (consume company a n sum) := by
  induction n generalizing sum with
  | zero => exact keeps_pure _
  | succ n ih =>
    refine Grips.bind (grips_atom (x := .takeMail a) rfl fun _ => rfl) ?_
    rintro mail _ rfl
    cases mail with
    | none => exact keeps_pure _
    | some m =>
      refine Keeps.bind (handleMail_keeps hc a m) fun o => ?_
      cases o with
      | poisoned => exact Keeps.bind (makeSick_keeps a) fun _ => keeps_pure _
      | skipped | complete | error => exact Keeps.bind pool_keeps fun p => ih _

theorem drain_keeps (hc : company.Civil) (a : ActorRef) :
    Keeps sweeps .away (drain company a) := by
  refine Keeps.bind (keeps_atom (x := .countMail a) rfl) fun (batch : Nat) => ?_
  split
  · exact keeps_pure _
  refine Keeps.bind (consume_keeps hc a batch _) fun r => ?_
  cases r with
  | none => exact keeps_pure _
  | some o =>
    refine Keeps.bind pool_keeps fun p => ?_
    exact Keeps.bind (report_keeps _) fun _ => keeps_pure _

/-! ### Sweeps -/

theorem finish_keeps (a : ActorRef) (o : Outcome) : Keeps true g (finish a o : Act σ Unit) :=
  grips_atom rfl fun _ => by cases g <;> rfl

theorem process_keeps (hc : company.Civil) (a : ActorRef) :
    Keeps true .away (process company a) := by
  refine Keeps.bind (keeps_atom (x := .claim a) rfl) fun (taken : Bool) => ?_
  cases taken with
  | false => exact keeps_pure _
  | true =>
    refine Keeps.bind (drain_keeps hc a) fun o => ?_
    exact Keeps.bind (finish_keeps a o) fun _ => keeps_pure _

/-- The reader gives up its grip for the time of the drain. -/
theorem processUnlocked_keeps (hc : company.Civil) (a : ActorRef) :
    Keeps true .reading (processUnlocked company lockTable a) := by
  refine Keeps.bind (keeps_atom (x := .claim a) rfl) fun (taken : Bool) => ?_
  cases taken with
  | false => exact keeps_pure _
  | true =>
    refine Grips.bind (lockTable_grips rfl fun _ => rfl) ?_
    rintro _ _ rfl
    refine Keeps.bind (drain_keeps hc a) fun o => ?_
    refine Grips.bind (lockTable_grips rfl fun _ => rfl) ?_
    rintro _ _ rfl
    exact Keeps.bind (finish_keeps a o) fun _ => keeps_pure _

theorem reportError_keeps (worker : Nat) (a : ActorRef) :
    Keeps sweeps g (reportError worker a : Act σ Unit) :=
  Keeps.bind pool_keeps fun _ => report_keeps _

theorem drainAll_keeps (hc : company.Civil) (worker : Nat) (actors : List ActorRef) :
    Keeps true .away (drainAll company worker actors) := by
  induction actors with
  | nil => exact keeps_pure _
  | cons a rest ih =>
    refine Keeps.bind (process_keeps hc a) fun o => ?_
    cases o with
    | poisoned => exact Keeps.bind ih fun _ => keeps_pure _
    | error => exact Keeps.bind (reportError_keeps worker a) fun _ => ih
    | skipped | complete => exact ih

theorem removeSick_keeps : Keeps true .away (removeSick : Act σ Nat) := by
  refine Grips.bind (lockTable_grips rfl fun _ => rfl) ?_
  rintro _ _ rfl
  refine Grips.bind (lockTable_grips rfl fun _ => rfl) ?_
  rintro _ _ rfl
  refine Keeps.bind (keeps_atom (x := .eraseSick) rfl) fun _ => ?_
  refine Keeps.bind (keeps_atom (x := .tableSize) rfl) fun size => ?_
  exact Grips.bind (lockTable_grips rfl fun _ => rfl) fun _ _ hg => hg

theorem snapshot_keeps : Keeps true .away (snapshot : Act σ _) := by
  refine Grips.bind (lockTable_grips rfl fun _ => rfl) ?_
  rintro _ _ rfl
  refine Keeps.bind (keeps_atom (x := .snapshot) rfl) fun actors => ?_
  exact Grips.bind (lockTable_grips rfl fun _ => rfl) fun _ _ hg => hg

theorem sweepDeferred_keeps (hc : company.Civil) (worker : Nat) :
    Keeps true .away (sweepDeferred company worker) := by
  refine Keeps.bind snapshot_keeps fun actors => ?_
  refine Keeps.bind (drainAll_keeps hc worker actors) fun n => ?_
  split
  · exact Keeps.bind removeSick_keeps fun size => report_keeps _
  · exact keeps_pure _

theorem removeActor_keeps (worker : Nat) (a : ActorRef) :
    Keeps true .reading (removeActor worker a : Act σ Unit) := by
  refine Grips.bind (lockTable_grips rfl fun _ => rfl) ?_
  rintro _ _ rfl
  refine Grips.bind (lockTable_grips rfl fun _ => rfl) ?_
  rintro _ _ rfl
  refine Grips.bind (lockTable_grips rfl fun _ => rfl) ?_
  rintro _ _ rfl
  refine Keeps.bind (keeps_atom (x := .erase a) rfl) fun _ => ?_
  refine Keeps.bind (keeps_atom (x := .tableSize) rfl) fun size => ?_
  refine Keeps.bind (report_keeps _) fun _ => ?_
  refine Grips.bind (lockTable_grips rfl fun _ => rfl) ?_
  rintro _ _ rfl
  exact lockTable_grips rfl fun _ => rfl

theorem visitSlot_keeps (hc : company.Civil) (worker cursor : Nat) :
    Keeps true .reading (visitSlot company worker cursor) := by
  refine Keeps.bind (keeps_atom (x := .slot cursor) rfl) fun found => ?_
  cases found with
  | none => exact keeps_pure _
  | some a =>
    refine Keeps.bind (processUnlocked_keeps hc a) fun o => ?_
    cases o with
    | poisoned => exact Keeps.bind (removeActor_keeps worker a) fun _ => keeps_pure _
    | error => exact Keeps.bind (reportError_keeps worker a) fun _ => keeps_pure _
    | skipped | complete => exact keeps_pure _

theorem visitSlots_keeps (hc : company.Civil) (worker fuel cursor : Nat) :
    Keeps true .reading (visitSlots company worker fuel cursor) := by
  induction fuel generalizing cursor with
  | zero => exact keeps_pure _
  | succ fuel ih =>
    refine Keeps.bind (visitSlot_keeps hc worker cursor) fun r => ?_
    cases r with
    | none => exact keeps_pure _
    | some cursor => exact ih cursor

theorem walk_keeps (hc : company.Civil) (worker limit : Nat) :
    Keeps true .away (walk company worker limit) := by
  refine Grips.bind (lockTable_grips rfl fun _ => rfl) ?_
  rintro _ _ rfl
  refine Keeps.bind (visitSlots_keeps hc worker limit 0) fun _ => ?_
  exact lockTable_grips rfl fun _ => rfl

theorem sweepWithin_keeps (hc : company.Civil) (worker limit : Nat) :
    Keeps true .away (sweepWithin company worker limit) := by
  refine Keeps.bind pool_keeps fun p => ?_
  split
  · exact sweepDeferred_keeps hc worker
  · exact walk_keeps hc worker limit

/-! ### The look for work -/

theorem needsProcessing_aloof (a : ActorRef) :
    (needsProcessing a : Act σ Bool).All (·.aloof) := by
  refine ⟨rfl, fun w => ?_⟩
  show Dialogue.All _ (if (w : World σ).pool.isIdle a then _ else _)
  split
  · exact ⟨rfl, fun _ => trivial⟩
  · trivial

theorem anyNeedsProcessing_aloof (actors : List ActorRef) :
    (anyNeedsProcessing actors : Act σ Bool).All (·.aloof) := by
  induction actors with
  | nil => trivial
  | cons a rest ih =>
    refine Dialogue.all_bind (needsProcessing_aloof a) fun found => ?_
    cases found with
    | true => trivial
    | false => exact ih

theorem search_grips : Grips sweeps .reading (search : Act σ Bool) fun _ g => g = .away := by
  refine Keeps.bind (keeps_atom (x := .snapshot) rfl) fun (actors : List ActorRef) => ?_
  refine Keeps.bind (keeps_of_aloof (anyNeedsProcessing_aloof actors)) fun found => ?_
  exact Grips.bind (lockTable_grips rfl fun _ => rfl) fun _ _ hg => hg

/-- Nothing in the look for work has to wait. -/
theorem search_all : (search : Act σ Bool).All fun x => x.aloof ∨ x = .lock .leaveRead := by
  refine ⟨.inl rfl, fun (actors : List ActorRef) => ?_⟩
  have haloof : (anyNeedsProcessing actors : Act σ Bool).All
      fun x => x.aloof ∨ x = .lock .leaveRead :=
    (anyNeedsProcessing_aloof actors).mono fun _ => .inl
  exact Dialogue.all_bind (d := anyNeedsProcessing actors) haloof fun _ =>
    ⟨.inr rfl, fun _ => trivial⟩

end Act

end ActorSystem
