import ActorSystem.Proofs.Sweep.Rounds

/-!
# Two worlds that differ in their tables

A handoff sweep erases an actor as soon as it stops, and a deferred sweep keeps it in the table
until the end. `Alike table gone u v` says of two worlds that this is all that tells them apart.
Roles that register nobody do not notice it: `Act.Matches` says of two acts that, carried out in two
such worlds, they come to the same and leave such worlds behind.

* `Matches.bind`, `Matches.ask`, `Matches.pool`: the rules.
* `interpret_matches`: what a role asks of the pool, if it keeps to `Company.Modest` requests.
* `turn_matches`: a turn of a deferred sweep and one of a handoff sweep.
-/

namespace ActorSystem

variable {σ : Signature} {α β : Type} {table gone : List ActorRef} {u v : World σ} {x : Atom σ}

/-- The same world with another table, another lock around it and another log. -/
def World.retabled (w : World σ) (table : List ActorRef) (lock : LockState) (log : Array Event) :
    World σ :=
  { w with pool := { w.pool with table, tableLock := lock }, log }

/-- World `u` has this table. From the table of `v` the actors `gone` have been erased, which have
stopped in both worlds. -/
structure Alike (table gone : List ActorRef) (u v : World σ) : Prop where
  full : u.pool.table = table
  rest : ∃ lock log, v = u.retabled (table.filter (· ∉ gone)) lock log
  stopped : ∀ c ∈ gone, u.pool.phaseOf c = some .sick

/-! ## Accesses -/

/-- The access has nothing to do with the table, and does not let go of an actor that is gone. -/
def Atom.blind (gone : List ActorRef) : Atom σ → Prop
  | look | alter _ | tableSize | snapshot | slot _ | enroll _ | eraseSick | erase _ => False
  | finish a _ => a ∉ gone
  | _ => True

/-- The role that has its entry by this access, with the message that it gets and what it knows. -/
def Visit.cue (e : Visit σ) : Option (ActorRef × Message σ.Value × Option (σ.Role × Context)) :=
  match e.atom with
  | .dispatch a m => some (a, m, (Atom.dispatch a m).answer e.world)
  | _ => none

theorem Atom.effect_retabled (hx : x.blind gone) (u : World σ) (table : List ActorRef)
    (lock : LockState) (log : Array Event) :
    ∃ lock' log',
      x.effect (u.retabled table lock log) = (x.effect u).retabled table lock' log' := by
  cases x with
  | report e => exact ⟨lock, log.push e, rfl⟩
  | lock op => exact ⟨lock.after op, log, rfl⟩
  | createMailbox c =>
    refine ⟨lock, log, ?_⟩
    simp only [effect, World.retabled]
    cases u.pool.office.create c <;> rfl
  | rekey b c d =>
    refine ⟨lock, log, ?_⟩
    simp only [effect, World.retabled]
    cases u.pool.office.rekey b c d <;> rfl
  | takeMail a =>
    refine ⟨lock, log, ?_⟩
    simp only [effect, World.retabled, Pool.actor?]
    cases u.pool.actors[a]?.bind fun y => u.pool.office.poll y.box <;> rfl
  | claim a =>
    refine ⟨lock, log, ?_⟩
    change (if u.pool.isIdle a then _ else _) = _
    simp only [effect]
    split <;> rfl
  | finish a o =>
    refine ⟨lock, log, ?_⟩
    simp only [effect]
    split <;> rfl
  | look | alter f | tableSize | snapshot | slot n | enroll y | eraseSick | erase c => cases hx
  | _ => exact ⟨lock, log, rfl⟩

namespace Alike

theorem answer (h : Alike table gone u v) (hx : x.blind gone) : x.answer v = x.answer u := by
  obtain ⟨lock, log, rfl⟩ := h.rest
  cases x <;> first | rfl | cases hx

theorem cue (h : Alike table gone u v) : (⟨v, x⟩ : Visit σ).cue = (⟨u, x⟩ : Visit σ).cue := by
  obtain ⟨lock, log, rfl⟩ := h.rest
  cases x <;> rfl

theorem effect (h : Alike table gone u v) (hx : x.blind gone) :
    Alike table gone (x.effect u) (x.effect v) := by
  refine ⟨?_, ?_, fun c hc => ?_⟩
  · rw [Atom.table_effect]
    cases x <;> first | exact h.full | cases hx
  · obtain ⟨lock, log, rfl⟩ := h.rest
    exact Atom.effect_retabled hx u _ lock log
  · have hsick := h.stopped c hc
    rw [Atom.phaseOf_effect]
    cases x with
    | claim a =>
      refine (if_neg fun hidle => ?_).trans hsick
      rw [hidle.1, hsick] at hidle
      cases hidle.2
    | sicken a =>
      dsimp only
      rw [hsick]
      exact ite_self _
    | finish a o =>
      refine (if_neg fun hlet => ?_).trans hsick
      exact hx (hlet.1 ▸ hc)
    | alter f | enroll y => cases hx
    | _ => exact hsick

/-- Whoever is gone would not be found anyway. -/
theorem findByName (h : Alike table gone u v) (name : String) :
    v.pool.findByName name = u.pool.findByName name := by
  obtain ⟨lock, log, rfl⟩ := h.rest
  change (List.find? (fun a => !u.pool.isSick a && u.pool.nameOf a == name)
    (table.filter (· ∉ gone))).bind _ = (List.find? _ u.pool.table).bind _
  rw [h.full, List.find?_filter]
  refine congrArg (fun found => (List.find? found table).bind _) (funext fun a => ?_)
  by_cases hgone : a ∈ gone
  · have hsick : u.pool.isSick a := Pool.isSick_iff.mpr (h.stopped a hgone)
    simp [hgone, hsick]
  · simp only [hgone, not_false_eq_true, decide_true, true_and, Bool.decide_eq_true]

end Alike

/-! ## Acts -/

namespace Act

/-- Carried out in two worlds that are alike, the two acts come to the same, give the roles the same
cues and leave two worlds that are alike. -/
def Matches (table gone : List ActorRef) (t t' : Act σ α) : Prop :=
  ∀ u v, Alike table gone u v → (t'.run v).1 = (t.run u).1 ∧
    Alike table gone (t.run u).2 (t'.run v).2 ∧
    (t'.visits v).filterMap Visit.cue = (t.visits u).filterMap Visit.cue

namespace Matches

variable {t t' : Act σ α}

theorem pure (a : α) : Matches table gone (pure a : Act σ α) (pure a) :=
  fun _ _ h => ⟨rfl, h, rfl⟩

theorem bind {f f' : α → Act σ β} (ht : Matches table gone t t')
    (hf : ∀ a, Matches table gone (f a) (f' a)) : Matches table gone (t >>= f) (t' >>= f') := by
  intro u v h
  obtain ⟨hsame, hnext, hcues⟩ := ht u v h
  obtain ⟨hsame', hlast, hcues'⟩ := hf (t.run u).1 _ _ hnext
  rw [run_bind, run_bind, visits_bind, visits_bind, hsame, List.filterMap_append,
    List.filterMap_append, hcues, hcues']
  exact ⟨hsame', hlast, rfl⟩

theorem ask {next next' : x.Answer → Act σ α} (hx : x.blind gone)
    (hnext : ∀ y, Matches table gone (next y) (next' y)) :
    Matches table gone (.ask x next) (.ask x next') := by
  intro u v h
  obtain ⟨hsame, hlast, hcues⟩ := hnext (x.answer u) _ _ (h.effect hx)
  simp only [run, visits, List.filterMap_cons]
  rw [h.answer hx, h.cue, hcues]
  exact ⟨hsame, hlast, rfl⟩

/-- A look tells the two worlds apart only by their tables. -/
theorem pool {f f' : Pool σ → Act σ α}
    (hf : ∀ u v, Alike table gone u v → Matches table gone (f u.pool) (f' v.pool)) :
    Matches table gone (Act.pool >>= f) (Act.pool >>= f') :=
  fun u v h => hf u v h u v h

end Matches

/-- The logs may differ. -/
theorem report_matches (e e' : Event) : Matches table gone (report e : Act σ Unit) (report e') := by
  intro u v h
  obtain ⟨lock, log, rfl⟩ := h.rest
  exact ⟨rfl, ⟨h.full, ⟨lock, log.push e', rfl⟩, h.stopped⟩, rfl⟩

/-- The locks may differ. -/
theorem lockTable_matches (op : LockState.Op) :
    Matches table gone (pure () : Act σ Unit) (lockTable op) := by
  intro u v h
  obtain ⟨lock, log, rfl⟩ := h.rest
  exact ⟨rfl, ⟨h.full, ⟨lock.after op, log, rfl⟩, h.stopped⟩, rfl⟩

/-! ## What is asked of the pool -/

theorem post_matches (target : Address) (m : Message σ.Value) :
    Matches table gone (post target m) (post target m) := by
  refine Matches.ask trivial fun (found : Option BoxRef) => ?_
  cases found with
  | some b => exact Matches.ask trivial fun _ => .pure _
  | none => exact (report_matches _ _).bind fun _ => .pure _

theorem revokeFor_matches (r : Revoker) (c : Address) :
    Matches table gone (revokeFor r c : Act σ Bool) (revokeFor r c) := by
  refine Matches.ask trivial fun (removed : Bool) => ?_
  cases removed with
  | true => exact (report_matches _ _).bind fun _ => .pure _
  | false => exact .pure _

theorem findByName_matches (name : String) :
    Matches table gone (findByName name : Act σ _) (findByName name) := by
  refine Matches.ask trivial fun _ => Matches.pool fun u v h => ?_
  dsimp only
  rw [h.findByName]
  exact Matches.ask trivial fun _ => .pure _

theorem unregister_matches (id : ActorId) :
    Matches table gone (unregister id : Act σ _) (unregister id) := by
  refine (post_matches _ _).bind fun r => ?_
  cases r with
  | error e => exact .pure _
  | ok done =>
    refine (revokeFor_matches _ _).bind fun _ => ?_
    exact (report_matches _ _).bind fun _ => .pure _

end Act

/-! ## Modest roles -/

/-- The access has to do with the outside only. -/
def Atom.outdoors : Atom σ → Bool
  | look | report _ | outside _ => true
  | _ => false

/-- What the outside does at this call has nothing to do with the pool. -/
structure Company.Apart (company : Company σ) (c : σ.Call) : Prop where
  kinds : (company.outside c).All (·.outdoors)
  same : ∀ u v : World σ, v.env = u.env →
    ((company.outside c).run v).1 = ((company.outside c).run u).1 ∧
      ((company.outside c).run v).2.env = ((company.outside c).run u).2.env

/-- What a role may ask for without ever learning how long stopped actors stay in the table. It
registers nobody. -/
def Company.Modest (company : Company σ) : Request σ → Prop
  | .register _ => False
  | .call c => company.Apart c
  | _ => True

namespace Act

variable {company : Company σ} {a : ActorRef}

theorem pool_of_outdoors {t : Act σ α} (ht : t.All (·.outdoors)) (w : World σ) :
    (t.run w).2.pool = w.pool := by
  induction t generalizing w with
  | done b => rfl
  | ask x next ih =>
    have hkept : (x.effect w).pool = w.pool := by
      cases x <;> first | rfl | cases ht.1
    exact (ih _ (ht.2 _) _).trans hkept

theorem cues_of_outdoors {t : Act σ α} (ht : t.All (·.outdoors)) (w : World σ) :
    (t.visits w).filterMap Visit.cue = [] := by
  refine filterMap_eq_nil_of_all ht (fun e he => ?_) w
  obtain ⟨w, x⟩ := e
  cases x <;> first | rfl | cases he

theorem outside_matches {c : σ.Call} (hc : company.Apart c) :
    Matches table gone (company.outside c) (company.outside c) := by
  intro u v h
  have hu := pool_of_outdoors hc.kinds u
  have hv := pool_of_outdoors hc.kinds v
  have henv : v.env = u.env := by
    obtain ⟨lock, log, rfl⟩ := h.rest
    rfl
  obtain ⟨hsame, henv'⟩ := hc.same u v henv
  refine ⟨hsame, ⟨hu ▸ h.full, ?_, fun c hc => hu ▸ h.stopped c hc⟩, ?_⟩
  · obtain ⟨lock, log, rfl⟩ := h.rest
    generalize (company.outside c).run u = r at hu henv' ⊢
    generalize (company.outside c).run _ = r' at hv henv' ⊢
    obtain ⟨b, p, l, env⟩ := r
    obtain ⟨b', p', l', env'⟩ := r'
    dsimp only at hu hv henv'
    subst hu hv henv'
    exact ⟨lock, l', rfl⟩
  · rw [cues_of_outdoors hc.kinds, cues_of_outdoors hc.kinds]

theorem answer_matches {r : Request σ} (hr : company.Modest r) :
    Matches table gone (answer company r) (answer company r) := by
  cases r with
  | post target m => exact post_matches target m
  | register role => exact hr.elim
  | unregister id => exact unregister_matches id
  | findByName name => exact findByName_matches name
  | log e => exact report_matches e e
  | call c => exact outside_matches hr

theorem interpret_matches {program : Program σ α} (hprogram : program.All company.Modest) :
    Matches table gone (interpret company program) (interpret company program) := by
  induction program with
  | done b => exact .pure b
  | ask r next ih => exact (answer_matches hprogram.1).bind fun y => ih y (hprogram.2 y)

/-! ## A drain -/

theorem readdress_matches (b : BoxRef) (c : Address) :
    Matches table gone (readdress b c : Act σ _) (readdress b c) := by
  refine Matches.pool fun u v h => ?_
  obtain ⟨lock, log, rfl⟩ := h.rest
  change Matches table gone (if u.pool.office.closed then _ else _)
    (if u.pool.office.closed then _ else _)
  split
  · exact .pure _
  refine Matches.ask trivial fun (r : Except Error Unit) => ?_
  cases r with
  | error e => exact .pure _
  | ok done =>
    have hlast : Matches table gone
        (atom (.setAddress b c) >>= fun _ => pure (.ok ()) : Act σ (Except Error Unit))
        (atom (.setAddress b c) >>= fun _ => pure (.ok ())) := Matches.ask trivial fun _ => .pure _
    change Matches table gone (if u.pool.office.addressOf b ≠ c then _ else _)
      (if u.pool.office.addressOf b ≠ c then _ else _)
    split
    · exact (report_matches _ _).bind fun _ => hlast
    · exact hlast

theorem changeId_matches (a : ActorRef) (id : ActorId) :
    Matches table gone (changeId a id : Act σ _) (changeId a id) := by
  rw [changeId_eq]
  refine Matches.pool fun u v h => ?_
  obtain ⟨lock, log, rfl⟩ := h.rest
  change Matches table gone ((u.pool.actor? a).elim _ (takeId a id (u.pool.addressOf a)))
    ((u.pool.actor? a).elim _ (takeId a id (u.pool.addressOf a)))
  cases u.pool.actor? a with
  | none => exact .pure _
  | some y =>
    dsimp only [Option.elim, takeId]
    split
    · exact report_matches _ _
    refine (readdress_matches _ _).bind fun r => ?_
    cases r with
    | error e => exact report_matches _ _
    | ok done => exact Matches.ask trivial fun _ => Matches.ask trivial fun _ => report_matches _ _

theorem makeSick_matches (a : ActorRef) :
    Matches table gone (makeSick a : Act σ Unit) (makeSick a) := by
  refine Matches.ask trivial fun _ => Matches.ask trivial fun _ => Matches.pool fun u v h => ?_
  obtain ⟨lock, log, rfl⟩ := h.rest
  refine (revokeFor_matches _ (u.pool.addressOf a)).bind fun _ => ?_
  exact Matches.pool fun _ _ _ => report_matches _ _

variable (hroles : ∀ role ctx m, (company.behaviour.handle role ctx m).All company.Modest)

include hroles

theorem afterDispatch_matches (a : ActorRef) (found : Option (σ.Role × Context))
    (m : Message σ.Value) :
    Matches table gone (afterDispatch company a found m) (afterDispatch company a found m) := by
  cases found with
  | none => exact .pure _
  | some found =>
    refine (interpret_matches (hroles found.1 found.2 m)).bind fun ending => ?_
    refine Matches.ask trivial fun _ => ?_
    dsimp only
    cases ending.verdict with
    | returned o => exact .pure _
    | panicked p =>
      exact Matches.pool fun _ _ _ => (report_matches _ _).bind fun _ => .pure _

theorem handleMail_matches (a : ActorRef) (m : Message σ.Value) :
    Matches table gone (handleMail company a m) (handleMail company a m) := by
  obtain ⟨source, body⟩ := m
  cases body with
  | user value =>
    change Matches table gone (dispatch company a _) (dispatch company a _)
    rw [dispatch_eq]
    exact Matches.ask trivial fun found => afterDispatch_matches hroles a found _
  | control c =>
    cases c with
    | poison => exact .pure _
    | setName name => exact Matches.ask trivial fun _ => .pure _
    | setId id => exact (changeId_matches a id).bind fun _ => .pure _

theorem consume_matches (a : ActorRef) (n : Nat) (sum : Outcome) :
    Matches table gone (consume company a n sum) (consume company a n sum) := by
  induction n generalizing sum with
  | zero => exact .pure _
  | succ n ih =>
    rw [consume_succ]
    refine Matches.ask trivial fun (mail : Option (Message σ.Value)) => ?_
    cases mail with
    | none => exact .pure _
    | some m =>
      refine (handleMail_matches hroles a m).bind fun o => ?_
      have hnext : ∀ o : Outcome, Matches table gone
          (do consume company a n ((← pool).config.batchPolicy.fold sum o))
          (do consume company a n ((← pool).config.batchPolicy.fold sum o)) := by
        intro o
        refine Matches.pool fun u v h => ?_
        obtain ⟨lock, log, rfl⟩ := h.rest
        exact ih (u.pool.config.batchPolicy.fold sum o)
      cases o with
      | poisoned => exact (makeSick_matches a).bind fun _ => .pure _
      | skipped | complete | error => exact hnext _

theorem drain_matches (a : ActorRef) :
    Matches table gone (drain company a) (drain company a) := by
  rw [drain_eq]
  refine Matches.ask trivial fun (batch : Nat) => ?_
  change Matches table gone (if batch = 0 then _ else _) (if batch = 0 then _ else _)
  split
  · exact .pure _
  refine (consume_matches hroles a batch _).bind fun r => ?_
  cases r with
  | none => exact .pure _
  | some o => exact Matches.pool fun _ _ _ => (report_matches _ _).bind fun _ => .pure _

/-- The two kinds of turn, for an actor that is not gone. -/
theorem turn_matches (ha : a ∉ gone) :
    Matches table gone (turn company .deferred a) (turn company .handoff a) := by
  refine Matches.ask trivial fun (taken : Bool) => ?_
  cases taken with
  | false => exact .pure _
  | true =>
    refine (lockTable_matches _).bind fun _ => (drain_matches hroles a).bind fun o => ?_
    refine (lockTable_matches _).bind fun _ => ?_
    exact Matches.ask ha fun _ => .pure _

end Act

end ActorSystem
