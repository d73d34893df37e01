import ActorSystem.Proofs.Act.Makeup
import ActorSystem.Proofs.Crew.Stage

/-!
# What acts are composed of

Actors get their IDs in two places only: when they are registered, and when a drain lets them
change their ID. Whatever else a pool does comes to accesses that neither give an actor an ID nor
enroll one (`common`). So every act is composed of registrations, changes of IDs and common
accesses, and a rule about IDs that these three keep is kept by all acts.

* `composed_of_all`: an act of common accesses.
* `act_composed`: every routine.
-/

namespace ActorSystem

variable {σ : Signature} {α β : Type}

/-- The access neither gives an actor an ID nor enrolls one. -/
def Atom.common : Atom σ → Bool
  | alter _ | setId .. | enroll _ => false
  | _ => true

namespace Act

inductive Composed : {α : Type} → Act σ α → Prop
  | pure {α : Type} (a : α) : Composed (pure a : Act σ α)
  | bind {α β : Type} {t : Act σ α} {f : α → Act σ β} (ht : Composed t)
    (hf : ∀ a, Composed (f a)) : Composed (t >>= f)
  | access (x : Atom σ) (hx : x.common) : Composed (atom x)
  | register (name : String) (role : σ.Role) : Composed (register name role)
  | changeId (a : ActorRef) (id : ActorId) : Composed (changeId a id)

theorem composed_of_all {t : Act σ α} (ht : t.All (·.common)) : Composed t := by
  induction t with
  | done a => exact .pure a
  | ask x next ih =>
    have hask : Dialogue.ask x next = atom x >>= next := rfl
    rw [hask]
    apply Composed.bind
    · exact .access x ht.1
    · intro y
      exact ih y (ht.2 y)

/-! ## What is asked of the pool -/

theorem pool_composed : Composed (pool : Act σ (Pool σ)) :=
  composed_of_all ⟨rfl, fun _ => trivial⟩

theorem report_composed (e : Event) : Composed (report e : Act σ Unit) := .access _ rfl

theorem lockTable_composed (op : LockState.Op) : Composed (lockTable op : Act σ Unit) :=
  .access _ rfl

theorem post_composed (target : Address) (m : Message σ.Value) : Composed (post target m) := by
  apply Composed.bind (.access (.resolve target) rfl)
  intro (found : Option BoxRef)
  cases found with
  | some b => exact .bind (.access (.put b m) rfl) fun _ => .pure _
  | none => exact .bind (report_composed _) fun _ => .pure _

theorem revokeFor_composed (r : Revoker) (c : Address) :
    Composed (revokeFor r c : Act σ Bool) := by
  apply composed_of_all
  exact all_revokeFor (P := fun x => x.common) (fun _ => rfl) rfl

theorem unregister_composed (id : ActorId) :
    Composed (unregister id : Act σ (Except Error Unit)) := by
  apply Composed.bind (post_composed _ _)
  intro r
  cases r with
  | error e => exact .pure _
  | ok =>
    apply Composed.bind (revokeFor_composed _ _)
    intro _
    exact .bind (report_composed _) fun _ => .pure _

theorem findByName_composed (name : String) :
    Composed (findByName name : Act σ (Option ActorId)) := by
  apply Composed.bind (lockTable_composed _)
  intro _
  apply Composed.bind pool_composed
  intro _
  exact .bind (lockTable_composed _) fun _ => .pure _

variable {company : Company σ} (hc : company.Civil)

include hc

theorem answer_composed (r : Request σ) : Composed (answer company r) := by
  cases r with
  | post target m => exact post_composed target m
  | register role => exact .register _ role
  | unregister id => exact unregister_composed id
  | findByName name => exact findByName_composed name
  | log e => exact report_composed e
  | call c =>
    apply composed_of_all
    apply (hc c).mono
    intro x hx
    cases x <;> first | rfl | cases hx

theorem interpret_composed (program : Program σ α) : Composed (interpret company program) := by
  induction program with
  | done a => exact .pure a
  | ask r next ih => exact .bind (answer_composed hc r) ih

/-! ## A drain -/

theorem dispatch_composed (a : ActorRef) (m : Message σ.Value) :
    Composed (dispatch company a m) := by
  apply Composed.bind (.access (.dispatch a m) rfl)
  intro (found : Option (σ.Role × Context))
  rcases found with _ | ⟨role, ctx⟩
  · exact .pure _
  apply Composed.bind (interpret_composed hc _)
  intro ending
  apply Composed.bind (.access (.setRole a ending.role) rfl)
  intro _
  cases ending.verdict with
  | returned o => exact .pure _
  | panicked p =>
    apply Composed.bind pool_composed
    intro _
    exact .bind (report_composed _) fun _ => .pure _

theorem handleMail_composed (a : ActorRef) (m : Message σ.Value) :
    Composed (handleMail company a m) := by
  unfold handleMail
  split
  · exact .pure _
  · exact .bind (.access (.setName a _) rfl) fun _ => .pure _
  · exact .bind (.changeId a _) fun _ => .pure _
  · exact dispatch_composed hc a _

theorem consume_composed (a : ActorRef) (n : Nat) (sum : Outcome) :
    Composed (consume company a n sum) := by
  induction n generalizing sum with
  | zero => exact .pure _
  | succ n ih =>
    apply Composed.bind (.access (.takeMail a) rfl)
    intro (mail : Option (Message σ.Value))
    cases mail with
    | none => exact .pure _
    | some m =>
      apply Composed.bind (handleMail_composed hc a m)
      intro o
      have hsick : Composed (makeSick a : Act σ Unit) := by
        apply composed_of_all
        exact all_makeSick (P := fun x => x.common) rfl (fun _ => rfl) rfl rfl fun _ => rfl
      have hgoes : Composed (do consume company a n ((← pool).config.batchPolicy.fold sum o)) :=
        .bind pool_composed fun _ => ih _
      cases o with
      | poisoned => exact .bind hsick fun _ => .pure _
      | skipped | complete | error => exact hgoes

theorem drain_composed (a : ActorRef) : Composed (drain company a) := by
  apply Composed.bind (.access (.countMail a) rfl)
  intro (n : Nat)
  split
  · exact .pure _
  apply Composed.bind (consume_composed hc a n .complete)
  intro r
  cases r with
  | none => exact .pure _
  | some o =>
    apply Composed.bind pool_composed
    intro _
    exact .bind (report_composed _) fun _ => .pure _

theorem process_composed (a : ActorRef) : Composed (process company a) := by
  apply Composed.bind (.access (.claim a) rfl)
  intro (taken : Bool)
  cases taken with
  | false => exact .pure _
  | true =>
    apply Composed.bind (drain_composed hc a)
    intro o
    exact .bind (.access (.finish a o) rfl) fun _ => .pure _

theorem processUnlocked_composed (a : ActorRef) :
    Composed (processUnlocked company lockTable a) := by
  apply Composed.bind (.access (.claim a) rfl)
  intro (taken : Bool)
  cases taken with
  | false => exact .pure _
  | true =>
    apply Composed.bind (lockTable_composed _)
    intro _
    apply Composed.bind (drain_composed hc a)
    intro o
    apply Composed.bind (lockTable_composed _)
    intro _
    exact .bind (.access (.finish a o) rfl) fun _ => .pure _

/-! ## Sweeps -/

omit hc in
theorem reportError_composed (worker : Nat) (a : ActorRef) :
    Composed (reportError worker a : Act σ Unit) :=
  .bind pool_composed fun _ => report_composed _

theorem drainAll_composed (worker : Nat) (actors : List ActorRef) :
    Composed (drainAll company worker actors) := by
  induction actors with
  | nil => exact .pure _
  | cons a rest ih =>
    apply Composed.bind (process_composed hc a)
    intro o
    cases o with
    | poisoned => exact .bind ih fun _ => .pure _
    | error => exact .bind (reportError_composed worker a) fun _ => ih
    | skipped | complete => exact ih

theorem sweepDeferred_composed (worker : Nat) : Composed (sweepDeferred company worker) := by
  have hsnapshot : Composed (snapshot : Act σ (List ActorRef)) :=
    composed_of_all ⟨rfl, fun _ => ⟨rfl, fun _ => ⟨rfl, fun _ => trivial⟩⟩⟩
  have hremove : Composed (removeSick : Act σ Nat) :=
    composed_of_all ⟨rfl, fun _ => ⟨rfl, fun _ => ⟨rfl, fun _ => ⟨rfl, fun _ => ⟨rfl, fun _ =>
      trivial⟩⟩⟩⟩⟩
  apply Composed.bind hsnapshot
  intro actors
  apply Composed.bind (drainAll_composed hc worker actors)
  intro poisoned
  split
  · exact .bind hremove fun _ => report_composed _
  · exact .pure _

theorem visitSlot_composed (worker cursor : Nat) :
    Composed (visitSlot company worker cursor) := by
  have hremove : ∀ a, Composed (removeActor worker a : Act σ Unit) := by
    intro a
    apply composed_of_all
    exact ⟨rfl, fun _ => ⟨rfl, fun _ => ⟨rfl, fun _ => ⟨rfl, fun _ => ⟨rfl, fun _ => ⟨rfl, fun _ =>
      ⟨rfl, fun _ => ⟨rfl, fun _ => trivial⟩⟩⟩⟩⟩⟩⟩⟩
  apply Composed.bind (.access (.slot cursor) rfl)
  intro (found : Option ActorRef)
  cases found with
  | none => exact .pure _
  | some a =>
    apply Composed.bind (processUnlocked_composed hc a)
    intro o
    cases o with
    | poisoned => exact .bind (hremove a) fun _ => .pure _
    | error => exact .bind (reportError_composed worker a) fun _ => .pure _
    | skipped | complete => exact .pure _

theorem visitSlots_composed (worker fuel cursor : Nat) :
    Composed (visitSlots company worker fuel cursor) := by
  induction fuel generalizing cursor with
  | zero => exact .pure _
  | succ fuel ih =>
    apply Composed.bind (visitSlot_composed hc worker cursor)
    intro r
    cases r with
    | none => exact .pure _
    | some next => exact ih next

theorem sweepWithin_composed (worker limit : Nat) :
    Composed (sweepWithin company worker limit) := by
  apply Composed.bind pool_composed
  intro p
  split
  · exact sweepDeferred_composed hc worker
  · apply Composed.bind (lockTable_composed _)
    intro _
    exact .bind (visitSlots_composed hc worker limit 0) fun _ => lockTable_composed _

/-! ## Routines -/

theorem act_composed (r : Routine σ) : Composed (r.act company) := by
  cases r with
  | serve program => exact .bind (interpret_composed hc program) fun _ => .pure _
  | slip a m =>
    apply Composed.bind pool_composed
    intro p
    split
    · exact .bind (.access _ rfl) fun _ => .pure _
    · exact .pure _
  | drain a => exact .bind (process_composed hc a) fun _ => .pure _
  | drainUnlocked a =>
    apply Composed.bind (lockTable_composed _)
    intro _
    apply Composed.bind (processUnlocked_composed hc a)
    intro _
    exact .bind (lockTable_composed _) fun _ => .pure _
  | sweep worker limit => exact .bind (sweepWithin_composed hc worker limit) fun _ => .pure _

end Act

end ActorSystem
