import ActorSystem.Proofs.Identity.InOrder
import ActorSystem.Proofs.Sweep.Rounds

/-!
# Who is erased

A sweep erases one actor at a time, or all that have stopped. The latter looks who has; the former
does not look, it goes by the outcome of the turn, and this is `poisoned` for no other reason than
that the actor has stopped and has given up its ID.

* `Act.turn_ends`: what an outcome says about the ID.
* `Routine.all_fair`: every actor that is erased has no ID any more.
-/

namespace ActorSystem

variable {σ : Signature} {company : Company σ} {α β : Type} {w : World σ} {a : ActorRef}

/-- The access erases no actor that has an ID. -/
def Visit.Fair (v : Visit σ) : Prop := ∀ a, v.atom = .erase a → v.world.pool.idOf a = none

def Atom.sparing : Atom σ → Bool
  | erase _ => false
  | _ => true

/-- The outside erases nobody. -/
def Company.Sparing (company : Company σ) : Prop := ∀ c, (company.outside c).All (·.sparing)

namespace Act

/-! ## How a turn ends -/

theorem idOf_makeSick (a : ActorRef) (w : World σ) :
    ((makeSick a).run w).2.pool.idOf a = none := by
  rw [makeSick_pool]
  change (w.pool.modifyActor a Actor.stopped).idOf a = none
  rw [Pool.idOf_modifyActor, if_pos rfl]
  cases w.pool.actor? a <;> rfl

/-- A batch that is broken off leaves the actor without an ID, and one that is not broken off does
not sum up to `poisoned`. -/
theorem consume_ends (n : Nat) {sum : Outcome} (hsum : sum ≠ .poisoned) (w : World σ) :
    match ((consume company a n sum).run w).1 with
    | none => ((consume company a n sum).run w).2.pool.idOf a = none
    | some o => o ≠ .poisoned := by
  induction n generalizing sum w with
  | zero => exact hsum
  | succ n ih =>
    rw [consume_succ]
    simp only [Act.run]
    cases (Atom.takeMail a).answer w with
    | none => exact hsum
    | some m =>
      dsimp only
      rw [run_bind]
      generalize (handleMail company a m).run ((Atom.takeMail a).effect w) = r
      obtain ⟨o, u⟩ := r
      by_cases ho : o = .poisoned
      · subst ho
        have hstop : afterMail company a n sum .poisoned = makeSick a >>= fun _ => pure none := rfl
        rw [hstop, run_bind]
        exact idOf_makeSick a u
      · have hgoes := ih (BatchPolicy.fold_ne_poisoned u.pool.config.batchPolicy hsum ho) u
        cases o with
        | poisoned => exact absurd rfl ho
        | skipped | complete | error => exact hgoes

theorem drain_ends (ho : ((drain company a).run w).1 = .poisoned) :
    ((drain company a).run w).2.pool.idOf a = none := by
  rw [drain_eq] at ho ⊢
  simp only [Act.run] at ho ⊢
  generalize (Atom.countMail a).answer w = batch at ho ⊢
  change Nat at batch
  by_cases hbatch : batch = 0
  · rw [if_pos hbatch] at ho
    cases ho
  · rw [if_neg hbatch, run_bind] at ho ⊢
    have hcomplete : Outcome.complete ≠ .poisoned := by decide
    have hends := @consume_ends σ company a batch .complete hcomplete ((Atom.countMail a).effect w)
    generalize (consume company a batch .complete).run ((Atom.countMail a).effect w) = r at *
    obtain ⟨r, u⟩ := r
    cases r with
    | none => exact hends
    | some o => exact absurd ho hends

theorem turn_ends (strategy : SweepStrategy) (a : ActorRef) (w : World σ)
    (ho : ((turn company strategy a).run w).1 = .poisoned) :
    ((turn company strategy a).run w).2.pool.idOf a = none := by
  by_cases hidle : w.pool.isIdle a
  · rw [turn_run hidle] at ho ⊢
    rw [afterClaim, run_bind, run_bind, run_bind, run_bind] at ho ⊢
    have hend := drain_ends ho
    -- going back inside and letting the actor go leaves it without an ID
    have hstep : ∀ (op : LockState.Op) (u : World σ),
        ((stepOf strategy op).run u).2.pool.idOf a = u.pool.idOf a := by
      intro op u
      cases strategy <;> rfl
    refine (Atom.idOf_effect (.finish a _) _ a).trans ?_
    exact (hstep _ _).trans hend
  · have hskipped : ((turn company strategy a).run w).1 = .skipped := by
      change (Act.run (if w.pool.isIdle a then _ else _) _).1 = _
      rw [if_neg hidle]
      rfl
    rw [hskipped] at ho
    cases ho

/-! ## What erases nobody -/

theorem interpret_sparing (hc : company.Sparing) (program : Program σ α) :
    (interpret company program).All (·.sparing) := by
  have hasked : ∀ {β : Type} {t : Act σ β}, t.All (·.asked) → t.All (·.sparing) :=
    fun ht => ht.mono fun x hx => by cases x <;> first | rfl | cases hx
  induction program with
  | done a => trivial
  | ask r next ih =>
    refine Dialogue.all_bind ?_ ih
    cases r with
    | post target m => exact hasked (post_asked target m)
    | register role =>
      exact hasked ((register_registers _ role).mono fun _ => Atom.asked_of_registers)
    | unregister id => exact hasked (unregister_asked id)
    | findByName name => exact hasked (findByName_asked name)
    | log e => exact ⟨rfl, fun _ => trivial⟩
    | call c => exact hc c

theorem turn_sparing (hc : company.Sparing) (strategy : SweepStrategy) (a : ActorRef) :
    (turn company strategy a).All (·.sparing) := by
  refine processUnlocked_all (P := fun x => x.sparing) rfl (fun _ => rfl) (fun op => ?_)
    (drain_all ?_ fun x hx => ?_)
  · cases strategy with
    | deferred => trivial
    | handoff => exact ⟨rfl, fun _ => trivial⟩
  · exact fun role ctx m => interpret_sparing hc _
  · cases x <;> first | rfl | cases hx

theorem drainAll_sparing (hc : company.Sparing) (worker : Nat) (actors : List ActorRef) :
    (drainAll company worker actors).All (·.sparing) := by
  induction actors with
  | nil => trivial
  | cons a rest ih =>
    rw [drainAll_cons]
    refine Dialogue.all_bind (turn_sparing hc .deferred a) fun o => ?_
    cases o with
    | poisoned => exact Dialogue.all_bind ih fun _ => trivial
    | error => exact ⟨rfl, fun _ => ⟨rfl, fun _ => ih⟩⟩
    | skipped | complete => exact ih

theorem sweepDeferred_sparing (hc : company.Sparing) (worker : Nat) :
    (sweepDeferred company worker).All (·.sparing) := by
  have hsnapshot : (snapshot : Act σ (List ActorRef)).All (·.sparing) :=
    ⟨rfl, fun _ => ⟨rfl, fun _ => ⟨rfl, fun _ => trivial⟩⟩⟩
  rw [sweepDeferred_eq]
  refine Dialogue.all_bind hsnapshot fun actors => ?_
  refine Dialogue.all_bind (drainAll_sparing hc worker actors) fun n => ?_
  rw [clearUp]
  split
  · exact ⟨rfl, fun _ => ⟨rfl, fun _ => ⟨rfl, fun _ => ⟨rfl, fun _ => ⟨rfl, fun _ =>
      ⟨rfl, fun _ => trivial⟩⟩⟩⟩⟩⟩
  · trivial

/-! ## Who is erased -/

/-- Nobody has been erased who had an ID. -/
def FairSoFar : Fact σ := fun h _ => ∀ v ∈ h, v.Fair

theorem fair_snoc {h : List (Visit σ)} {v : Visit σ} (hh : ∀ u ∈ h, u.Fair) (hv : v.Fair) :
    ∀ u ∈ h ++ [v], u.Fair := by
  intro u hu
  rcases List.mem_append.mp hu with hu | hu
  · exact hh u hu
  · rw [List.mem_singleton.mp hu]
    exact hv

theorem fair_of_sparing {t : Act σ α} (ht : t.All (·.sparing)) :
    Leads FairSoFar t fun _ => FairSoFar := by
  refine Leads.of_all ht fun x hx h w hh => fair_snoc hh ?_
  rintro a rfl
  cases hx

/-- After a turn that came to `poisoned` the actor may be erased. -/
theorem removeActor_fair (worker : Nat) (a : ActorRef) :
    Leads (fun h w => FairSoFar h w ∧ w.pool.idOf a = none) (removeActor (σ := σ) worker a)
      fun _ => FairSoFar := by
  have hall : (removeActor (σ := σ) worker a).All fun x =>
      x.between ∧ ∀ c, x = .erase c → c = a := by
    refine ⟨⟨rfl, nofun⟩, fun _ => ⟨⟨rfl, nofun⟩, fun _ => ⟨⟨rfl, nofun⟩, fun _ => ⟨⟨rfl, ?_⟩,
      fun _ => ⟨⟨rfl, nofun⟩, fun _ => ⟨⟨rfl, nofun⟩, fun _ => ⟨⟨rfl, nofun⟩,
        fun _ => ⟨⟨rfl, nofun⟩, fun _ => trivial⟩⟩⟩⟩⟩⟩⟩⟩
    rintro c ⟨⟩
    rfl
  refine (Leads.of_all hall ?_).mono (fun _ _ hh => hh) fun _ _ _ hh => hh.1
  rintro x ⟨hx, hown⟩ h w ⟨hh, hid⟩
  refine ⟨fair_snoc hh ?_, ?_⟩
  · intro c hc
    rw [hown c hc]
    exact hid
  · rw [Atom.idOf_effect]
    cases x <;> first | exact hid | cases hx

theorem visitSlot_fair (hc : company.Sparing) (worker n : Nat) :
    Leads FairSoFar (visitSlot company worker n) fun _ => FairSoFar := by
  have hslot : Leads (FairSoFar (σ := σ)) (atom (.slot n)) fun _ => FairSoFar :=
    fair_of_sparing ⟨rfl, fun _ => trivial⟩
  rw [visitSlot_eq]
  refine hslot.bind fun (found : Option ActorRef) => ?_
  cases found with
  | none => exact Leads.pure fun _ _ hh => hh
  | some a =>
    have hturn : Leads FairSoFar (turn company .handoff a) fun o h w =>
        FairSoFar h w ∧ (o = .poisoned → w.pool.idOf a = none) :=
      fun h w hh => ⟨fair_of_sparing (turn_sparing hc .handoff a) h w hh, turn_ends .handoff a w⟩
    refine hturn.bind fun o => ?_
    cases o with
    | poisoned =>
      refine Leads.bind (Q := fun _ => FairSoFar) ?_ fun _ => Leads.pure fun _ _ hh => hh
      exact (removeActor_fair worker a).mono (fun _ _ hh => ⟨hh.1, hh.2 rfl⟩) fun _ _ _ hh => hh
    | error | skipped | complete =>
      refine (fair_of_sparing ?_).mono (fun _ _ hh => hh.1) fun _ _ _ hh => hh
      first | trivial | exact ⟨rfl, fun _ => ⟨rfl, fun _ => trivial⟩⟩

theorem visitSlots_fair (hc : company.Sparing) (worker fuel n : Nat) :
    Leads FairSoFar (visitSlots company worker fuel n) fun _ => FairSoFar := by
  induction fuel generalizing n with
  | zero => exact Leads.pure fun _ _ hh => hh
  | succ fuel ih =>
    refine (visitSlot_fair hc worker n).bind fun next => ?_
    cases next with
    | none => exact Leads.pure fun _ _ hh => hh
    | some n => exact ih n

theorem lockTable_fair (op : LockState.Op) :
    Leads (FairSoFar (σ := σ)) (lockTable op) fun _ => FairSoFar :=
  fair_of_sparing ⟨rfl, fun _ => trivial⟩

theorem act_fair (hc : company.Sparing) (r : Routine σ) :
    Leads FairSoFar (r.act company) fun _ => FairSoFar := by
  have hlook : Leads (FairSoFar (σ := σ)) pool fun _ => FairSoFar :=
    fair_of_sparing ⟨rfl, fun _ => trivial⟩
  cases r with
  | serve program =>
    exact (fair_of_sparing (interpret_sparing hc program)).bind fun _ => Leads.pure fun _ _ hh => hh
  | slip a m =>
    refine hlook.bind fun p => ?_
    split
    · exact fair_of_sparing ⟨rfl, fun _ => trivial⟩
    · exact Leads.pure fun _ _ hh => hh
  | drain a =>
    exact (fair_of_sparing (turn_sparing hc .deferred a)).bind fun _ => Leads.pure fun _ _ hh => hh
  | drainUnlocked a =>
    refine (lockTable_fair _).bind fun _ => ?_
    refine (fair_of_sparing (turn_sparing hc .handoff a)).bind fun _ => ?_
    exact (lockTable_fair _).bind fun _ => Leads.pure fun _ _ hh => hh
  | sweep worker limit =>
    refine Leads.bind (Q := fun _ => FairSoFar) (hlook.bind fun p => ?_)
      fun _ => Leads.pure fun _ _ hh => hh
    split
    · exact fair_of_sparing (sweepDeferred_sparing hc worker)
    · refine (lockTable_fair _).bind fun _ => ?_
      exact (visitSlots_fair hc worker limit 0).bind fun _ => lockTable_fair _

end Act

open Act

/-- In every run of routines, one after another: whoever is erased has no ID any more. -/
theorem Routine.all_fair (hc : company.Sparing) (rs : List (Routine σ)) (w : World σ) :
    ∀ v ∈ (Routine.all company rs).visits w, v.Fair := by
  have hall : Leads FairSoFar (Routine.all company rs) fun _ => FairSoFar := by
    induction rs with
    | nil => exact Leads.pure fun _ _ hh => hh
    | cons r rs ih => exact (act_fair hc r).bind fun _ => ih
  have hend := hall [] w fun v hv => absurd hv List.not_mem_nil
  rwa [List.nil_append] at hend

end ActorSystem
