import ActorSystem.Proofs.Crew.Stage

/-!
# Patrols

Drains and sweeps go from actor to actor, and all that happens to an actor on their way happens in
batches. Around these they look and report, take actors and let them go, and see to the table: an
act that does so `Patrols`, and what holds of batches and of clerical accesses holds of it.

* `patrols_of_all`: an act of clerical accesses.
* `act_patrols`: every routine that takes actors.
-/

namespace ActorSystem

variable {σ : Signature} {α : Type}

/-- What a sweep does around the batches. -/
def Atom.clerical : Atom σ → Bool
  | look | report _ | claim _ | finish .. | countMail _ => true
  | lock _ | tableSize | snapshot | slot _ | eraseSick | erase _ => true
  | _ => false

namespace Act

inductive Patrols (company : Company σ) : {α : Type} → Act σ α → Prop
  | pure {α : Type} (a : α) : Patrols company (pure a : Act σ α)
  | bind {α β : Type} {t : Act σ α} {f : α → Act σ β} (ht : Patrols company t)
    (hf : ∀ a, Patrols company (f a)) : Patrols company (t >>= f)
  | access (x : Atom σ) (hx : x.clerical) : Patrols company (atom x)
  | batch (a : ActorRef) (n : Nat) (sum : Outcome) : Patrols company (consume company a n sum)

variable {company : Company σ}

theorem patrols_of_all {t : Act σ α} (ht : t.All (·.clerical)) : Patrols company t := by
  induction t with
  | done a => exact .pure a
  | ask x next ih =>
    have hask : Dialogue.ask x next = atom x >>= next := rfl
    rw [hask]
    apply Patrols.bind
    · exact .access x ht.1
    · intro y
      exact ih y (ht.2 y)

/-! ## Drains -/

theorem pool_patrols : Patrols company (pool : Act σ (Pool σ)) :=
  patrols_of_all ⟨rfl, fun _ => trivial⟩

theorem lockTable_patrols (op : LockState.Op) : Patrols company (lockTable op : Act σ Unit) :=
  .access _ rfl

theorem drain_patrols (a : ActorRef) : Patrols company (drain company a) := by
  apply Patrols.bind (.access (.countMail a) rfl)
  intro (n : Nat)
  split
  · exact .pure _
  apply Patrols.bind (.batch a n .complete)
  intro r
  cases r with
  | none => exact .pure _
  | some o =>
    apply Patrols.bind pool_patrols
    intro _
    exact .bind (.access _ rfl) fun _ => .pure _

theorem process_patrols (a : ActorRef) : Patrols company (process company a) := by
  apply Patrols.bind (.access (.claim a) rfl)
  intro (taken : Bool)
  cases taken with
  | false => exact .pure _
  | true =>
    exact .bind (drain_patrols a) fun o => .bind (.access (.finish a o) rfl) fun _ => .pure _

theorem processUnlocked_patrols (a : ActorRef) :
    Patrols company (processUnlocked company lockTable a) := by
  apply Patrols.bind (.access (.claim a) rfl)
  intro (taken : Bool)
  cases taken with
  | false => exact .pure _
  | true =>
    apply Patrols.bind (lockTable_patrols _)
    intro _
    apply Patrols.bind (drain_patrols a)
    intro o
    apply Patrols.bind (lockTable_patrols _)
    intro _
    exact .bind (.access (.finish a o) rfl) fun _ => .pure _

/-! ## Sweeps -/

theorem reportError_patrols (worker : Nat) (a : ActorRef) :
    Patrols company (reportError worker a : Act σ Unit) :=
  .bind pool_patrols fun _ => .access _ rfl

theorem drainAll_patrols (worker : Nat) (actors : List ActorRef) :
    Patrols company (drainAll company worker actors) := by
  induction actors with
  | nil => exact .pure _
  | cons a rest ih =>
    apply Patrols.bind (process_patrols a)
    intro o
    cases o with
    | poisoned => exact .bind ih fun _ => .pure _
    | error => exact .bind (reportError_patrols worker a) fun _ => ih
    | skipped | complete => exact ih

theorem sweepDeferred_patrols (worker : Nat) : Patrols company (sweepDeferred company worker) := by
  have hsnapshot : Patrols company (snapshot : Act σ (List ActorRef)) :=
    patrols_of_all ⟨rfl, fun _ => ⟨rfl, fun _ => ⟨rfl, fun _ => trivial⟩⟩⟩
  have hremove : Patrols company (removeSick : Act σ Nat) :=
    patrols_of_all ⟨rfl, fun _ => ⟨rfl, fun _ => ⟨rfl, fun _ => ⟨rfl, fun _ => ⟨rfl, fun _ =>
      trivial⟩⟩⟩⟩⟩
  apply Patrols.bind hsnapshot
  intro actors
  apply Patrols.bind (drainAll_patrols worker actors)
  intro poisoned
  split
  · exact .bind hremove fun _ => .access _ rfl
  · exact .pure _

theorem visitSlot_patrols (worker cursor : Nat) :
    Patrols company (visitSlot company worker cursor) := by
  have hremove : ∀ a, Patrols company (removeActor worker a : Act σ Unit) := by
    intro a
    apply patrols_of_all
    exact ⟨rfl, fun _ => ⟨rfl, fun _ => ⟨rfl, fun _ => ⟨rfl, fun _ => ⟨rfl, fun _ => ⟨rfl, fun _ =>
      ⟨rfl, fun _ => ⟨rfl, fun _ => trivial⟩⟩⟩⟩⟩⟩⟩⟩
  apply Patrols.bind (.access (.slot cursor) rfl)
  intro (found : Option ActorRef)
  cases found with
  | none => exact .pure _
  | some a =>
    apply Patrols.bind (processUnlocked_patrols a)
    intro o
    cases o with
    | poisoned => exact .bind (hremove a) fun _ => .pure _
    | error => exact .bind (reportError_patrols worker a) fun _ => .pure _
    | skipped | complete => exact .pure _

theorem visitSlots_patrols (worker fuel cursor : Nat) :
    Patrols company (visitSlots company worker fuel cursor) := by
  induction fuel generalizing cursor with
  | zero => exact .pure _
  | succ fuel ih =>
    apply Patrols.bind (visitSlot_patrols worker cursor)
    intro r
    cases r with
    | none => exact .pure _
    | some next => exact ih next

theorem sweepWithin_patrols (worker limit : Nat) :
    Patrols company (sweepWithin company worker limit) := by
  apply Patrols.bind pool_patrols
  intro p
  split
  · exact sweepDeferred_patrols worker
  · apply Patrols.bind (lockTable_patrols _)
    intro _
    exact .bind (visitSlots_patrols worker limit 0) fun _ => lockTable_patrols _

theorem act_patrols {r : Routine σ} (hr : r.drains) : Patrols company (r.act company) := by
  cases r with
  | serve | slip => cases hr
  | drain a => exact .bind (process_patrols a) fun _ => .pure _
  | drainUnlocked a =>
    apply Patrols.bind (lockTable_patrols _)
    intro _
    apply Patrols.bind (processUnlocked_patrols a)
    intro _
    exact .bind (lockTable_patrols _) fun _ => .pure _
  | sweep worker limit => exact .bind (sweepWithin_patrols worker limit) fun _ => .pure _

end Act

end ActorSystem
