import ActorSystem.Proofs.Act.Service
import ActorSystem.Proofs.Sweep.Lock

/-!
# The lock during a drain

A caller who is inside a lock as a reader can have an actor drained and step out of the lock for
that time. Such a drain comes to the same as a drain for a caller who is not inside at all, and
leaves everything as that one does, but for the reader who is inside again at its end. The lock may
be any lock of a world, also one that the roles take themselves; a role that takes it as a writer
finds the caller outside.

* `Latch`: a lock that lies somewhere in a world, with the laws of a lens; `Latch.table` is the lock
  around the table.
* `processUnlocked_run`: both forms of a drain compared, for every company of roles.
* `Latch.processUnlocked_leads`: the lock as the roles find it, and as the drain leaves it.
* `handoff`: both, and what follows for sweeps.
-/

namespace ActorSystem

variable {σ : Signature} {α : Type}

/-! ## Locks of a world -/

/-- The access finds the role that a message is for, which then handles it. -/
def Atom.isDispatch : Atom σ → Bool
  | dispatch .. => true
  | _ => false

/-- The access is one to a pool, and not to the lock around its table. -/
def Atom.inner : Atom σ → Bool
  | outside _ | alter _ | lock _ => false
  | _ => true

/-- The access has to do neither with locks nor with roles at work. -/
def Atom.calm (x : Atom σ) : Bool := x.inner && !x.isDispatch

theorem Atom.calm_iff {x : Atom σ} : x.calm ↔ x.inner ∧ x.isDispatch = false := by
  simp [Atom.calm]

open Act

/-- A lock that lies somewhere in a world, apart from its actors. -/
structure Latch (σ : Signature) where
  /-- How a thread gets at it. -/
  step : LockState.Op → Act σ Unit
  state : World σ → LockState
  put : LockState → World σ → World σ
  step_run : ∀ op w, (step op).run w = ((), put ((state w).after op) w)
  step_all : ∀ op, (step op).All (·.isDispatch = false)
  state_put : ∀ l w, state (put l w) = l
  put_state : ∀ w, put (state w) w = w
  put_put : ∀ l k w, put l (put k w) = put l w
  state_effect : ∀ (x : Atom σ), x.inner → ∀ w, state (x.effect w) = state w
  actors_put : ∀ l w, (put l w).pool.actors = w.pool.actors
  modifyActor_put : ∀ l w a f, (put l w).modifyActor a f = put l (w.modifyActor a f)

namespace Latch

/-- The lock around the table. -/
def table : Latch σ where
  step := lockTable
  state w := w.pool.tableLock
  put l w := w.modifyPool fun p => { p with tableLock := l }
  step_run _ _ := rfl
  step_all _ := ⟨rfl, fun _ => trivial⟩
  state_put _ _ := rfl
  put_state _ := rfl
  put_put _ _ _ := rfl
  state_effect x hx w := by
    rw [Atom.tableLock_effect]
    cases x <;> first | rfl | cases hx
  actors_put _ _ := rfl
  modifyActor_put _ _ _ _ := rfl

/-- A lock that lies outside of the pool. -/
def ofEnv (get : σ.Env → LockState) (set : LockState → σ.Env → σ.Env)
    (get_set : ∀ l e, get (set l e) = l) (set_get : ∀ e, set (get e) e = e)
    (set_set : ∀ l k e, set l (set k e) = set l e) : Latch σ where
  step op := atom (.outside fun e => set ((get e).after op) e)
  state w := get w.env
  put l w := { w with env := set l w.env }
  step_run _ _ := rfl
  step_all _ := ⟨rfl, fun _ => trivial⟩
  state_put l w := get_set l w.env
  put_state w := by rw [set_get]
  put_put l k w := by rw [set_set]
  state_effect x hx w := by
    have henv : (x.effect w).env = w.env := by
      refine Atom.env_effect (fun f hf => ?_) (fun f hf => ?_) w <;>
        · rw [hf] at hx
          cases hx
    rw [henv]
  actors_put _ _ := rfl
  modifyActor_put _ _ _ _ := rfl

variable (L : Latch σ) {w : World σ} {a : ActorRef}

/-- The world without one of the lock's readers. -/
def leave (w : World σ) : World σ := L.put (L.state w).dropReader w

/-- The world with one more reader of the lock. -/
def enter (w : World σ) : World σ := L.put (L.state w).addReader w

theorem enter_leave (h : 0 < (L.state w).readers) : L.enter (L.leave w) = w := by
  rw [enter, leave, L.state_put, L.put_put, LockState.addReader_dropReader h, L.put_state]

theorem isIdle_put (l : LockState) (w : World σ) (a : ActorRef) :
    (L.put l w).pool.isIdle a = w.pool.isIdle a := by
  simp only [Pool.isIdle, Pool.actor?, L.actors_put]

theorem effect_claim_put (l : LockState) (w : World σ) (a : ActorRef) :
    (Atom.claim a).effect (L.put l w) = L.put l ((Atom.claim a).effect w) := by
  simp only [Atom.effect, L.isIdle_put, L.modifyActor_put]
  split <;> rfl

theorem effect_finish_put (l : LockState) (w : World σ) (a : ActorRef) (o : Outcome) :
    (Atom.finish a o).effect (L.put l w) = L.put l ((Atom.finish a o).effect w) := by
  simp only [Atom.effect, L.modifyActor_put]
  split <;> rfl

end Latch

/-! ## Both forms of a drain -/

namespace Act

variable {company : Company σ} {w : World σ} {a : ActorRef}

theorem process_of_idle (h : w.pool.isIdle a) : (process company a).run w =
    (((drain company a).run ((Atom.claim a).effect w)).1,
      (Atom.finish a ((drain company a).run ((Atom.claim a).effect w)).1).effect
        ((drain company a).run ((Atom.claim a).effect w)).2) := by
  have hbegin : (tryBegin a : Act σ Bool).run w = (true, (Atom.claim a).effect w) :=
    Prod.ext h rfl
  rw [process, run_bind, hbegin, if_pos rfl, run_bind, run_bind]
  rfl

theorem process_of_not_idle (h : w.pool.isIdle a = false) :
    (process company a).run w = (.skipped, w) := by
  have hbegin : (tryBegin a : Act σ Bool).run w = (false, w) :=
    Prod.ext h (if_neg (Bool.eq_false_iff.mp h))
  rw [process, run_bind, hbegin, if_neg nofun]
  rfl

variable (L : Latch σ)

theorem processUnlocked_of_not_idle (h : w.pool.isIdle a = false) :
    (processUnlocked company L.step a).run w = (.skipped, w) ∧
      (processUnlocked company L.step a).visits w = [⟨w, .claim a⟩] := by
  have hbegin : (tryBegin a : Act σ Bool).run w = (false, w) :=
    Prod.ext h (if_neg (Bool.eq_false_iff.mp h))
  rw [processUnlocked, run_bind, visits_bind, hbegin, if_neg nofun]
  exact ⟨rfl, rfl⟩

theorem processUnlocked_of_idle (h : w.pool.isIdle a) :
    (processUnlocked company L.step a).run w =
      (((drain company a).run (L.leave ((Atom.claim a).effect w))).1,
        (Atom.finish a ((drain company a).run (L.leave ((Atom.claim a).effect w))).1).effect
          (L.enter ((drain company a).run (L.leave ((Atom.claim a).effect w))).2)) := by
  have hbegin : (tryBegin a : Act σ Bool).run w = (true, (Atom.claim a).effect w) :=
    Prod.ext h rfl
  rw [processUnlocked, run_bind, hbegin, if_pos rfl, run_bind, L.step_run, run_bind, run_bind,
    L.step_run, run_bind]
  rfl

/-- A drain for a caller inside the lock comes to the same as one for a caller who is not, and
leaves the same world, in which the caller is inside. -/
theorem processUnlocked_run (h : 0 < (L.state w).readers) :
    (processUnlocked company L.step a).run w =
      (((process company a).run (L.leave w)).1,
        L.enter ((process company a).run (L.leave w)).2) := by
  have hstate : L.state ((Atom.claim a).effect w) = L.state w := L.state_effect (.claim a) rfl w
  have hleave : (Atom.claim a).effect (L.leave w) = L.leave ((Atom.claim a).effect w) := by
    rw [Latch.leave, L.effect_claim_put, Latch.leave, hstate]
  cases hidle : w.pool.isIdle a with
  | false =>
    have hidle' : (L.leave w).pool.isIdle a = false := (L.isIdle_put _ w a).trans hidle
    rw [(processUnlocked_of_not_idle L hidle).1, process_of_not_idle hidle', L.enter_leave h]
  | true =>
    have hidle' : (L.leave w).pool.isIdle a := (L.isIdle_put _ w a).trans hidle
    rw [processUnlocked_of_idle L hidle, process_of_idle hidle', hleave]
    generalize (drain company a).run (L.leave ((Atom.claim a).effect w)) = r
    refine Prod.ext rfl ?_
    show (Atom.finish a r.1).effect (L.enter r.2) = L.enter ((Atom.finish a r.1).effect r.2)
    rw [Latch.enter, L.effect_finish_put, Latch.enter, L.state_effect (.finish a r.1) rfl]

end Act

/-! ## What the roles find -/

namespace Latch

variable (L : Latch σ) {company : Company σ} {a : ActorRef} {base l : LockState}

/-- The lock stands at `l`, and whenever a role was about to handle a message it stood at `base`. -/
def At (base l : LockState) : Fact σ := fun h w =>
  L.state w = l ∧ ∀ v ∈ h, v.atom.isDispatch → L.state v.world = base

/-- Whoever handles a message leaves the lock as it was, unless there was a writer, and has no
other message handled for it. -/
def Tidy (company : Company σ) : Prop := ∀ role ctx m w, (L.state w).hasWriter = false →
  L.state ((interpret company (company.behaviour.handle role ctx m)).run w).2 = L.state w ∧
  ∀ v ∈ (interpret company (company.behaviour.handle role ctx m)).visits w,
    v.atom.isDispatch = false

variable {L}

theorem At.append {h : List (Visit σ)} {w : World σ} (hat : L.At base l h w) {vs : List (Visit σ)}
    (hvs : ∀ v ∈ vs, v.atom.isDispatch → L.state v.world = base) {w' : World σ} {k : LockState}
    (hw' : L.state w' = k) : L.At base k (h ++ vs) w' := by
  refine ⟨hw', fun v hv hdispatch => ?_⟩
  rcases List.mem_append.mp hv with hv | hv
  · exact hat.2 v hv hdispatch
  · exact hvs v hv hdispatch

/-- What has nothing to do with the lock. -/
theorem leads_calm {t : Act σ α} (ht : t.All (·.calm)) :
    Leads (L.At base l) t fun _ => L.At base l := by
  refine Leads.of_all ht fun x hx h w hat => ?_
  obtain ⟨hinner, hcalm⟩ := Atom.calm_iff.mp hx
  refine hat.append (fun v hv hdispatch => ?_) ((L.state_effect x hinner w).trans hat.1)
  cases List.mem_singleton.mp hv
  exact nomatch hcalm.symm.trans hdispatch

theorem leads_atom {x : Atom σ} (hx : x.calm) :
    Leads (L.At base l) (atom x) fun _ => L.At base l :=
  leads_calm ⟨hx, fun _ => trivial⟩

theorem leads_dispatch (m : Message σ.Value) :
    Leads (L.At base base) (atom (.dispatch a m)) fun _ => L.At base base := by
  refine Leads.atom fun h w hat => hat.append (fun v hv _ => ?_) hat.1
  cases List.mem_singleton.mp hv
  exact hat.1

theorem leads_step (op : LockState.Op) :
    Leads (L.At base l) (L.step op) fun _ => L.At base (l.after op) := by
  intro h w hat
  refine hat.append (fun v hv hdispatch => ?_) ?_
  · exact nomatch (visits_of_all (L.step_all op) w v hv).symm.trans hdispatch
  · rw [L.step_run, L.state_put, hat.1]

theorem calm_of_minds {x : Atom σ} (hx : x.minds a) : x.calm := by
  cases x <;> first | rfl | cases hx

theorem leads_report (e : Event) : Leads (L.At base l) (report e) fun _ => L.At base l :=
  leads_atom rfl

theorem leads_pool : Leads (L.At base l) pool fun _ => L.At base l :=
  leads_calm ⟨rfl, fun _ => trivial⟩

section

variable (htidy : L.Tidy company) (hbase : base.hasWriter = false)

include htidy hbase

theorem leads_handle (role : σ.Role) (ctx : Context) (m : Message σ.Value) :
    Leads (L.At base base) (interpret company (company.behaviour.handle role ctx m))
      fun _ => L.At base base := by
  intro h w hat
  have hw : (L.state w).hasWriter = false := by
    rw [hat.1]
    exact hbase
  obtain ⟨hstate, hcalm⟩ := htidy role ctx m w hw
  refine hat.append (fun v hv hdispatch => ?_) (hstate.trans hat.1)
  exact nomatch (hcalm v hv).symm.trans hdispatch

theorem leads_handleMail (m : Message σ.Value) :
    Leads (L.At base base) (handleMail company a m) fun _ => L.At base base := by
  obtain ⟨source, body⟩ := m
  cases body with
  | user value =>
    refine (leads_dispatch _).bind fun (found : Option (σ.Role × Context)) => ?_
    rcases found with _ | ⟨role, ctx⟩
    · exact Leads.pure fun _ _ h => h
    refine (leads_handle htidy hbase role ctx _).bind fun ending => ?_
    refine (leads_atom (x := .setRole a ending.role) rfl).bind fun _ => ?_
    cases ending.verdict with
    | returned o => exact Leads.pure fun _ _ h => h
    | panicked p =>
      refine leads_pool.bind fun q => ?_
      exact (leads_report _).bind fun _ => Leads.pure fun _ _ h => h
  | control c =>
    cases c with
    | poison => exact Leads.pure fun _ _ h => h
    | setName name =>
      exact (leads_atom (x := .setName a name) rfl).bind fun _ => Leads.pure fun _ _ h => h
    | setId id =>
      have hcalm : (changeId a id : Act σ Unit).All (·.calm) :=
        changeId_all (fun _ => calm_of_minds) id
      exact (leads_calm hcalm).bind fun _ => Leads.pure fun _ _ h => h

theorem leads_consume (n : Nat) (sum : Outcome) :
    Leads (L.At base base) (consume company a n sum) fun _ => L.At base base := by
  induction n generalizing sum with
  | zero => exact Leads.pure fun _ _ h => h
  | succ n ih =>
    refine (leads_atom (x := .takeMail a) rfl).bind fun (mail : Option (Message σ.Value)) => ?_
    cases mail with
    | none => exact Leads.pure fun _ _ h => h
    | some m =>
      refine (leads_handleMail htidy hbase m).bind fun o => ?_
      cases o with
      | poisoned =>
        have hcalm : (makeSick a : Act σ Unit).All (·.calm) :=
          all_makeSick (P := fun x => x.calm) rfl (fun _ => rfl) rfl rfl fun _ => rfl
        exact (leads_calm hcalm).bind fun _ => Leads.pure fun _ _ h => h
      | skipped | complete | error => exact leads_pool.bind fun p => ih _

theorem leads_drain : Leads (L.At base base) (drain company a) fun _ => L.At base base := by
  refine (leads_atom (x := .countMail a) rfl).bind fun (batch : Nat) => ?_
  split
  · exact Leads.pure fun _ _ h => h
  refine (leads_consume htidy hbase batch _).bind fun r => ?_
  cases r with
  | none => exact Leads.pure fun _ _ h => h
  | some o =>
    refine leads_pool.bind fun p => ?_
    exact (leads_report _).bind fun _ => Leads.pure fun _ _ h => h

theorem leads_process :
    Leads (L.At base base) (process company a) fun _ => L.At base base := by
  refine (leads_atom (x := .claim a) rfl).bind fun (taken : Bool) => ?_
  cases taken with
  | false => exact Leads.pure fun _ _ h => h
  | true =>
    refine (leads_drain htidy hbase).bind fun o => ?_
    exact (leads_atom (x := .finish a o) rfl).bind fun _ => Leads.pure fun _ _ h => h

/-- The caller comes in as a reader, is outside while the roles are at work, and leaves the drain
as a reader. -/
theorem leads_processUnlocked : Leads (L.At base base.addReader)
    (processUnlocked company L.step a) fun _ => L.At base base.addReader := by
  refine (leads_atom (x := .claim a) rfl).bind fun (taken : Bool) => ?_
  cases taken with
  | false => exact Leads.pure fun _ _ h => h
  | true =>
    refine (leads_step .leaveRead).bind fun _ => ?_
    refine (leads_drain htidy hbase).bind fun o => ?_
    refine (leads_step .enterRead).bind fun _ => ?_
    exact (leads_atom (x := .finish a o) rfl).bind fun _ => Leads.pure fun _ _ h => h

end

end Latch

/-! ## Sweeps -/

namespace Latch

variable {company : Company σ} {base : LockState}

theorem not_dispatch_of_asked {x : Atom σ} (hx : x.asked) : x.isDispatch = false := by
  cases x <;> first | rfl | cases hx

/-- What is asked of a pool leaves the lock around its table as it was. -/
theorem table_tidy (hc : company.Civil) : Latch.table.Tidy company := by
  intro role ctx m w hw
  have hcalm : (interpret company (company.behaviour.handle role ctx m)).All
      (·.isDispatch = false) := (interpret_asked hc _).mono fun _ => not_dispatch_of_asked
  have hkeeps : Keeps true .away (interpret company (company.behaviour.handle role ctx m)) :=
    interpret_keeps hc _
  exact ⟨hkeeps.lock_eq hw, visits_of_all hcalm w⟩

theorem leads_lockTable {l : LockState} (op : LockState.Op) :
    Leads (table.At base l) (lockTable op : Act σ Unit) fun _ => table.At base (l.after op) :=
  leads_step (L := table) op

theorem leads_removeSick (hbase : base.hasWriter = false) :
    Leads (table.At base base) (removeSick : Act σ Nat) fun _ => table.At base base := by
  refine (leads_lockTable .claim).bind fun _ => ?_
  refine (leads_lockTable .awaitReaders).bind fun _ => ?_
  refine (leads_atom (x := .eraseSick) rfl).bind fun _ => ?_
  refine (leads_atom (x := .tableSize) rfl).bind fun size => ?_
  refine (leads_lockTable .leaveWrite).bind fun _ => Leads.pure fun h w hat => ?_
  rwa [LockState.after, LockState.after, LockState.after, LockState.unclaim_claim hbase] at hat

theorem leads_removeActor (hbase : base.hasWriter = false) (worker : Nat) (a : ActorRef) :
    Leads (table.At base base.addReader) (removeActor worker a : Act σ Unit)
      fun _ => table.At base base.addReader := by
  refine (leads_lockTable .leaveRead).bind fun _ => ?_
  refine (leads_lockTable .claim).bind fun _ => ?_
  refine (leads_lockTable .awaitReaders).bind fun _ => ?_
  refine (leads_atom (x := .erase a) rfl).bind fun _ => ?_
  refine (leads_atom (x := .tableSize) rfl).bind fun size => ?_
  refine (leads_report _).bind fun _ => ?_
  refine (leads_lockTable .leaveWrite).bind fun _ => ?_
  refine Leads.mono (leads_lockTable .enterRead) (fun _ _ hat => hat) fun _ h w hat => ?_
  have hback : base.addReader.dropReader.claim.unclaim = base := LockState.unclaim_claim hbase
  simp only [LockState.after, hback] at hat
  exact hat

theorem leads_reportError {l : LockState} (worker : Nat) (a : ActorRef) :
    Leads (table.At base l) (reportError worker a : Act σ Unit) fun _ => table.At base l :=
  leads_pool.bind fun _ => leads_report _

variable (hc : company.Civil) (hbase : base.hasWriter = false)

include hc hbase

theorem leads_drainAll (worker : Nat) (actors : List ActorRef) :
    Leads (table.At base base) (drainAll company worker actors) fun _ => table.At base base := by
  induction actors with
  | nil => exact Leads.pure fun _ _ h => h
  | cons a rest ih =>
    refine (leads_process (table_tidy hc) hbase).bind fun o => ?_
    cases o with
    | poisoned => exact ih.bind fun _ => Leads.pure fun _ _ h => h
    | error => exact (leads_reportError worker a).bind fun _ => ih
    | skipped | complete => exact ih

theorem leads_sweepDeferred (worker : Nat) :
    Leads (table.At base base) (sweepDeferred company worker) fun _ => table.At base base := by
  have hsnapshot : Leads (table.At base base) (snapshot : Act σ _) fun _ => table.At base base := by
    refine (leads_lockTable .enterRead).bind fun _ => ?_
    refine (leads_atom (x := .snapshot) rfl).bind fun (actors : List ActorRef) => ?_
    exact (leads_lockTable .leaveRead).bind fun _ => Leads.pure fun _ _ h => h
  refine hsnapshot.bind fun actors => ?_
  refine (leads_drainAll hc hbase worker actors).bind fun poisoned => ?_
  split
  · exact (leads_removeSick hbase).bind fun size => leads_report _
  · exact Leads.pure fun _ _ h => h

theorem leads_visitSlot (worker cursor : Nat) :
    Leads (table.At base base.addReader) (visitSlot company worker cursor)
      fun _ => table.At base base.addReader := by
  refine (leads_atom (x := .slot cursor) rfl).bind fun (found : Option ActorRef) => ?_
  cases found with
  | none => exact Leads.pure fun _ _ h => h
  | some a =>
    refine (leads_processUnlocked (table_tidy hc) hbase).bind fun o => ?_
    cases o with
    | poisoned =>
      exact (leads_removeActor hbase worker a).bind fun _ => Leads.pure fun _ _ h => h
    | error => exact (leads_reportError worker a).bind fun _ => Leads.pure fun _ _ h => h
    | skipped | complete => exact Leads.pure fun _ _ h => h

theorem leads_visitSlots (worker fuel cursor : Nat) :
    Leads (table.At base base.addReader) (visitSlots company worker fuel cursor)
      fun _ => table.At base base.addReader := by
  induction fuel generalizing cursor with
  | zero => exact Leads.pure fun _ _ h => h
  | succ fuel ih =>
    refine (leads_visitSlot hc hbase worker cursor).bind fun r => ?_
    cases r with
    | none => exact Leads.pure fun _ _ h => h
    | some cursor => exact ih cursor

theorem leads_walk (worker limit : Nat) :
    Leads (table.At base base) (walk company worker limit) fun _ => table.At base base := by
  refine (leads_lockTable .enterRead).bind fun _ => ?_
  exact (leads_visitSlots hc hbase worker limit 0).bind fun _ => leads_lockTable .leaveRead

theorem leads_sweepWithin (worker limit : Nat) :
    Leads (table.At base base) (sweepWithin company worker limit) fun _ => table.At base base := by
  refine leads_pool.bind fun p => ?_
  split
  · exact leads_sweepDeferred hc hbase worker
  · exact leads_walk hc hbase worker limit

end Latch

/-! ## The guard of the caller -/

/-- Whenever the thread is at the lock around the table, it need not wait. -/
def Act.Unhindered (t : Act σ α) (w : World σ) : Prop :=
  ∀ v ∈ t.visits w, ∀ op, v.atom = .lock op → v.world.pool.tableLock.admits op

/-- How a drain of `a` treats the guard of a caller who is inside `L` as a reader. -/
structure HandsOff (company : Company σ) (L : Latch σ) (a : ActorRef) (w : World σ) : Prop where
  /-- It comes to the same as a drain for a caller without a guard, and all that is different in the
  end is the guard. -/
  same : (processUnlocked company L.step a).run w =
    (((process company a).run (L.leave w)).1, L.enter ((process company a).run (L.leave w)).2)
  /-- The lock is left alone if the actor is busy or has stopped. -/
  skips : w.pool.isIdle a = false → (processUnlocked company L.step a).run w = (.skipped, w) ∧
    (processUnlocked company L.step a).visits w = [⟨w, .claim a⟩]
  /-- The guard is not held when a role is about to handle a message. -/
  outside : L.Tidy company → (L.state w).hasWriter = false →
    ∀ v ∈ (processUnlocked company L.step a).visits w, v.atom.isDispatch →
      L.state v.world = (L.state w).dropReader
  /-- It is held in the end. -/
  inside : L.Tidy company → (L.state w).hasWriter = false →
    L.state ((processUnlocked company L.step a).run w).2 = L.state w

section

variable {company : Company σ} {w : World σ}

theorem hands_off (L : Latch σ) (a : ActorRef) (hguard : 0 < (L.state w).readers) :
    HandsOff company L a w := by
  have hback : (L.state w).dropReader.addReader = L.state w :=
    LockState.addReader_dropReader hguard
  have hstart : L.At (L.state w).dropReader (L.state w).dropReader.addReader [] w :=
    ⟨hback.symm, fun v hv => nomatch hv⟩
  have hend : L.Tidy company → (L.state w).hasWriter = false →
      L.At (L.state w).dropReader (L.state w).dropReader.addReader
        ([] ++ (processUnlocked company L.step a).visits w)
        ((processUnlocked company L.step a).run w).2 :=
    fun htidy (hw : (L.state w).dropReader.hasWriter = false) =>
      Latch.leads_processUnlocked htidy hw [] w hstart
  exact ⟨processUnlocked_run L hguard, processUnlocked_of_not_idle L,
    fun htidy hw => (hend htidy hw).2, fun htidy hw => (hend htidy hw).1.trans hback⟩

/-- A sweep by a worker without a guard. -/
structure SweepsOutside (company : Company σ) (worker limit : Nat) (w : World σ) : Prop where
  /-- The worker has no guard when a role is about to handle a message. -/
  outside : ∀ v ∈ (sweepWithin company worker limit).visits w, v.atom.isDispatch →
    v.world.pool.tableLock = w.pool.tableLock
  /-- It has none in the end. -/
  ends : ((sweepWithin company worker limit).run w).2.pool.tableLock = w.pool.tableLock
  alone : w.pool.tableLock = {} → (sweepWithin company worker limit).Unhindered w

theorem sweeps_outside (hc : company.Civil) (worker limit : Nat)
    (hw : w.pool.tableLock.hasWriter = false) : SweepsOutside company worker limit w := by
  have hstart : Latch.table.At w.pool.tableLock w.pool.tableLock [] w :=
    ⟨rfl, fun v hv => nomatch hv⟩
  have hend := Latch.leads_sweepWithin hc hw worker limit [] w hstart
  exact ⟨hend.2, hend.1, fun halone => Grips.admits (sweepWithin_keeps hc worker limit) halone⟩

/-- A drain that hands off the caller's guard is as good as one for a caller without a guard, and
the roles have the lock for themselves. So a sweep never holds the lock around the table while a
role is at work. -/
theorem drain_hands_off (company : Company σ) :
    (∀ (L : Latch σ) a w, 0 < (L.state w).readers → HandsOff company L a w) ∧
    (company.Civil → Latch.table.Tidy company ∧
      (∀ a w, w.pool.tableLock = { readers := 1 } →
        (processUnlocked company lockTable a).Unhindered w) ∧
      ∀ worker limit w, w.pool.tableLock.hasWriter = false →
        SweepsOutside company worker limit w) :=
  ⟨fun L a _ => hands_off L a, fun hc => ⟨Latch.table_tidy hc,
    fun a _ hw => Grips.admits (processUnlocked_keeps hc a) hw,
    fun worker limit _ => sweeps_outside hc worker limit⟩⟩

end

/-! ## Scribes -/

namespace Scribe

/-- There is a book outside of the pool, and a lock around it. -/
def signature : Signature where
  Role := Unit
  Value := Unit
  Env := LockState × Nat
  Call := Unit
  Reply _ := Unit

def lock : Latch signature :=
  .ofEnv Prod.fst (fun l e => (l, e.2)) (fun _ _ => rfl) (fun _ => rfl) (fun _ _ _ => rfl)

/-- Whoever gets a letter registers somebody, as the writer of the table, writes a page, as the
writer of the book, and panics. -/
def company : Company signature where
  behaviour := {
    nameOf := fun _ => "scribe"
    handle := fun _ _ _ => .ask (.register ()) fun _ => .ask (.call ()) fun _ =>
      .done ⟨(), .panicked (.text "no ink")⟩ }
  outside _ := do
    lock.step .claim
    lock.step .awaitReaders
    atom (.outside fun (e : LockState × Nat) => (e.1, e.2 + 1))
    lock.step .leaveWrite

theorem company_civil : company.Civil :=
  fun _ => ⟨rfl, fun _ => ⟨rfl, fun _ => ⟨rfl, fun _ => ⟨rfl, fun _ => trivial⟩⟩⟩⟩

theorem env_of_registers {t : Act signature α} (ht : t.All (·.registers)) (w : World signature) :
    (t.run w).2.env = w.env := by
  induction t generalizing w with
  | done a => rfl
  | ask x next ih =>
    have henv : (x.effect w).env = w.env := by
      refine Atom.env_effect (fun f hf => ?_) (fun f hf => ?_) w <;>
        · have hx := ht.1
          rw [hf] at hx
          cases hx
    exact (ih _ (ht.2 _) _).trans henv

theorem lock_tidy : lock.Tidy company := by
  intro role ctx m w hw
  have henv := env_of_registers (register_registers "scribe" ()) w
  have hrun : ((interpret company (company.behaviour.handle role ctx m)).run w).2 =
      ((company.outside ()).run ((Act.register "scribe" ()).run w).2).2 := by
    show (run (Act.register "scribe" () >>= fun _ =>
      company.outside () >>= fun _ => pure _) w).2 = _
    rw [run_bind, run_bind]
    rfl
  have hcalm : (interpret company (company.behaviour.handle role ctx m)).All
      (·.isDispatch = false) :=
    (interpret_asked company_civil _).mono fun _ => Latch.not_dispatch_of_asked
  refine ⟨?_, visits_of_all hcalm w⟩
  rw [hrun]
  show ((Act.register "scribe" ()).run w).2.env.1.claim.unclaim = w.env.1
  rw [henv]
  exact LockState.unclaim_claim hw

/-- A scribe with a letter, and a caller who is inside both locks. -/
def visited : World signature :=
  Latch.table.enter (lock.enter ((Routine.all company
    [.serve (.ask (.register ()) fun _ => .done ()),
      .serve (.ask (.post ⟨1⟩ (.ofValue ())) fun _ => .done ())]).run (.empty {} ({}, 0))).2)

theorem scribe_hands_off : company.Civil ∧ lock.Tidy company ∧
    HandsOff company lock 0 visited ∧ HandsOff company .table 0 visited ∧
    (processUnlocked company lockTable 0).Unhindered visited ∧
    SweepsOutside company 0 3 (Latch.table.leave visited) ∧
    ((processUnlocked company lockTable 0).run visited).1 = .error ∧
    ((processUnlocked company lockTable 0).run visited).2.pool.table = [0, 1] ∧
    ((processUnlocked company lockTable 0).run visited).2.env.2 = 1 ∧
    ((processUnlocked company lockTable 0).visits visited).countP (·.atom.isDispatch) = 1 := by
  obtain ⟨hdrain, hcivil⟩ := drain_hands_off company
  obtain ⟨-, halone, hsweep⟩ := hcivil company_civil
  have hlock : 0 < (lock.state visited).readers := by decide +kernel
  have htable : visited.pool.tableLock = { readers := 1 } := by decide +kernel
  have hleft : (Latch.table.leave visited).pool.tableLock.hasWriter = false := by decide +kernel
  have hguard : 0 < ((Latch.table (σ := signature)).state visited).readers := by
    show 0 < visited.pool.tableLock.readers
    rw [htable]
    exact Nat.one_pos
  exact ⟨company_civil, lock_tidy, hdrain lock 0 visited hlock, hdrain .table 0 visited hguard,
    halone 0 visited htable, hsweep 0 3 _ hleft, by decide +kernel, by decide +kernel,
    by decide +kernel, by decide +kernel⟩

end Scribe

end ActorSystem
