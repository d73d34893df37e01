import ActorSystem.Proofs.Act.Leads

/-!
# What acts are made of

What is true of every access that an act may make. The acts below are the ones that have a part in
the identity of an actor; `P` is whatever one wants to know about their accesses, and is asked for
each kind of access that occurs.

* `visits_of_all`: what is true of all accesses is true of those that are made.
-/

namespace ActorSystem.Act

variable {σ : Signature} {α : Type} {P : Atom σ → Prop}

theorem visits_of_all {t : Act σ α} (ht : t.All P) (w : World σ) : ∀ v ∈ t.visits w, P v.atom := by
  induction t generalizing w with
  | done a => exact fun v hv => absurd hv List.not_mem_nil
  | ask x next ih =>
    intro v hv
    rcases List.mem_cons.mp hv with rfl | hv
    · exact ht.1
    · exact ih _ (ht.2 _) _ v hv

theorem all_report {e : Event} (hreport : P (.report e)) : (report e).All P :=
  ⟨hreport, fun _ => trivial⟩

/-- What `changeId` does with an actor that it has found at the address `source`. -/
def takeId (a : ActorRef) (id : ActorId) (source : Address) (x : Actor σ) : Act σ Unit := do
  if id.address.isNamed then report (.idOutsideRange source id)
  else match ← readdress x.box id.address with
    | .ok () =>
      atom (.setId a id)
      reserveId id
      report (.renumbered id.address x.name)
    | .error e => report (.idRejected source id e)

theorem changeId_eq (a : ActorRef) (id : ActorId) :
    (changeId a id : Act σ Unit) =
      pool >>= fun p => (p.actor? a).elim (return ()) (takeId a id (p.addressOf a)) := by
  refine congrArg (pool >>= ·) (funext fun p => ?_)
  cases p.actor? a <;> rfl

section PostOffice

variable (hlook : P .look) (hreport : ∀ e, P (.report e))

include hreport

theorem all_createMailbox {c : Address} (hcreate : P (.createMailbox c)) :
    (createMailbox c).All P := by
  refine ⟨hcreate, fun r => ?_⟩
  cases r with
  | ok b => exact ⟨hreport _, fun _ => trivial⟩
  | error e => exact ⟨hreport _, fun _ => trivial⟩

theorem all_revokeFor {r : Revoker} {c : Address} (hrevoke : P (.revoke r c)) :
    (revokeFor r c).All P := by
  refine ⟨hrevoke, fun (removed : Bool) => ?_⟩
  cases removed with
  | true => exact ⟨hreport _, fun _ => trivial⟩
  | false => trivial

include hlook

theorem all_readdress {b : BoxRef} {c : Address} (hrekey : ∀ source, P (.rekey b source c))
    (hset : P (.setAddress b c)) : (readdress b c).All P := by
  refine ⟨hlook, fun (w : World σ) => ?_⟩
  change Dialogue.All P (if w.pool.office.closed then _ else _)
  split
  · trivial
  refine ⟨hrekey _, fun (r : Except Error Unit) => ?_⟩
  cases r with
  | error e => trivial
  | ok u =>
    change Dialogue.All P (if w.pool.office.addressOf b ≠ c then _ else _)
    split
    · exact ⟨hreport _, fun _ => ⟨hset, fun _ => trivial⟩⟩
    · exact ⟨hset, fun _ => trivial⟩

theorem all_makeSick {a : ActorRef} (hsicken : P (.sicken a)) (hdrop : P (.dropId a))
    (hrevoke : ∀ c, P (.revoke (.actor a) c)) : (makeSick a).All P := by
  refine ⟨hsicken, fun _ => ⟨hdrop, fun _ => ⟨hlook, fun (w : World σ) => ?_⟩⟩⟩
  change Dialogue.All P (revokeFor (.actor a) (w.pool.addressOf a) >>= fun _ => _)
  refine Dialogue.all_bind (all_revokeFor hreport (hrevoke _)) fun _ => ⟨hlook, fun _ => ?_⟩
  exact all_report (hreport _)

theorem all_changeId {a : ActorRef} {id : ActorId}
    (hrekey : ∀ b source, P (.rekey b source id.address)) (hset : ∀ b, P (.setAddress b id.address))
    (hid : P (.setId a id)) (hreserve : P (.reserve id)) : (changeId a id).All P := by
  rw [changeId_eq]
  refine ⟨hlook, fun (w : World σ) => ?_⟩
  change Dialogue.All P ((w.pool.actor? a).elim (return ()) (takeId a id (w.pool.addressOf a)))
  cases w.pool.actor? a with
  | none => trivial
  | some x =>
    change Dialogue.All P (if id.address.isNamed then _ else _)
    split
    · exact all_report (hreport _)
    refine Dialogue.all_bind (all_readdress hlook hreport (hrekey _) (hset _)) fun r => ?_
    cases r with
    | error e => exact all_report (hreport _)
    | ok u => exact ⟨hid, fun _ => ⟨hreserve, fun _ => all_report (hreport _)⟩⟩

end PostOffice

end ActorSystem.Act
