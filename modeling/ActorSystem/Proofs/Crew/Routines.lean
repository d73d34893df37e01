import ActorSystem.Proofs.Crew.Stage

/-!
# Every routine obeys

The acts of a pool in the order of its modules, each with the stages it leads through. From this
alone follows what the threads of a crew can do to each other.

* `register_obeys`, `answer_obeys`: what is asked of the pool leaves no trace in a stage.
* `drain_obeys`, `process_obeys`: a drain ends with the actor let go or stopped.
* `sweepWithin_obeys`: a sweep erases what it has stopped.
* `act_obeys`: every routine obeys from its first stage on.
-/

namespace ActorSystem

variable {σ : Signature} {config : Config} {s : Stage σ}

namespace Act

/-! ## The lock around the table -/

theorem lockTable_obeys {op : LockState.Op} (hop : (Atom.lock op : Atom σ).neutral) :
    Obeys config s (lockTable op) fun _ s' => s' = s :=
  obeys_atom_of_neutral hop

theorem claimTable_obeys (hs : s.desk = .away) :
    Obeys config s (lockTable .claim) fun _ s' => s' = { s with desk := .writing } :=
  Obeys.atom ⟨trivial, hs, nofun, nofun⟩ fun _ _ => rfl

theorem leaveTable_obeys (hs : s.desk ≠ .away) :
    Obeys config s (lockTable .leaveWrite) fun _ s' => s' = { s with desk := .away } :=
  Obeys.atom ⟨trivial, hs, nofun, nofun⟩ fun _ _ => rfl

theorem tableSize_obeys (hs : s.desk = .writing) :
    Obeys config s (atom .tableSize) fun n s' => s' = { s with desk := .sized n } := by
  refine Obeys.atom ⟨trivial, trivial, nofun, nofun⟩ fun n _ => ?_
  obtain ⟨drains, turn, desk, debt⟩ := s
  simp only at hs
  subst hs
  rfl

theorem enroll_obeys {n : Nat} {x : Actor σ} (hs : s.desk = .boxed n x.box)
    (hroom : n < config.maxActors) (hx : x.phase = .idle) :
    Obeys config s (atom (.enroll x)) fun _ s' => s' = { s with desk := .writing } := by
  obtain ⟨drains, turn, desk, debt⟩ := s
  simp only at hs
  subst hs
  exact Obeys.atom ⟨trivial, ⟨n, rfl, hroom, hx⟩, nofun, nofun⟩ fun _ _ => rfl

/-! ## The post office -/

theorem report_obeys (e : Event) : Obeys config s (report e) fun _ s' => s' = s :=
  obeys_atom_of_neutral rfl

theorem pool_obeys : Obeys config s pool fun p s' => p.config = config ∧ s' = s :=
  ⟨allows_of_neutral rfl, fun _ hw => ⟨hw, after_of_neutral rfl _⟩⟩

theorem post_obeys (target : Address) (m : Message σ.Value) :
    Obeys config s (post target m) fun _ s' => s' = s := by
  refine obeys_of_neutral ⟨rfl, fun found => ?_⟩
  cases found with
  | some b => exact ⟨rfl, fun _ => trivial⟩
  | none => exact ⟨rfl, fun _ => trivial⟩

theorem createMailbox_obeys {n : Nat} (hs : s.desk = .sized n) (c : Address) :
    Obeys config s (createMailbox c) fun r s' => s' = match r with
      | .ok b => { s with desk := .boxed n b }
      | .error _ => s := by
  refine ⟨⟨trivial, trivial, nofun, nofun⟩, fun r _ => ?_⟩
  obtain ⟨drains, turn, desk, debt⟩ := s
  simp only at hs
  subst hs
  cases r with
  | ok b => exact (report_obeys _).bind fun _ _ hs => Obeys.pure hs
  | error e => exact (report_obeys _).bind fun _ _ hs => Obeys.pure hs

theorem revokeFor_obeys (r : Revoker) (c : Address) :
    Obeys config s (revokeFor r c) fun _ s' => s' = s := by
  refine obeys_of_neutral ⟨rfl, fun removed => ?_⟩
  cases removed with
  | true => exact ⟨rfl, fun _ => trivial⟩
  | false => trivial

theorem readdress_obeys (b : BoxRef) (c : Address) :
    Obeys config s (readdress b c) fun _ s' => s' = s := by
  refine pool_obeys.bind ?_
  rintro p _ ⟨-, rfl⟩
  dsimp only
  split
  · exact Obeys.pure rfl
  refine Obeys.bind (obeys_atom_of_neutral rfl) ?_
  rintro r _ rfl
  cases r with
  | error e => exact Obeys.pure rfl
  | ok =>
    dsimp only
    split
    · refine (report_obeys _).bind ?_
      rintro _ _ rfl
      exact (obeys_atom_of_neutral rfl).bind fun _ _ hs => Obeys.pure hs
    · exact (obeys_atom_of_neutral rfl).bind fun _ _ hs => Obeys.pure hs

/-! ## Registering and unregistering -/

theorem register_obeys (hs : s.desk = .away) (name : String) (role : σ.Role) :
    Obeys config s (register name role) fun _ s' => s' = s := by
  obtain ⟨drains, turn, desk, debt⟩ := s
  simp only at hs
  subst hs
  refine (claimTable_obeys rfl).bind ?_
  rintro _ _ rfl
  refine (lockTable_obeys rfl).bind ?_
  rintro _ _ rfl
  refine pool_obeys.bind ?_
  rintro p _ ⟨hp, rfl⟩
  refine (tableSize_obeys rfl).bind ?_
  rintro (n : Nat) _ rfl
  dsimp only
  split
  · refine (report_obeys _).bind ?_
    rintro _ _ rfl
    exact (leaveTable_obeys (by simp)).bind fun _ _ hs => Obeys.pure hs
  rename_i hroom
  refine (obeys_atom_of_neutral (x := .nextId) rfl).bind ?_
  rintro id _ rfl
  refine (createMailbox_obeys rfl _).bind ?_
  rintro made _ rfl
  cases made with
  | error e => exact (leaveTable_obeys (by simp)).bind fun _ _ hs => Obeys.pure hs
  | ok b =>
    refine Obeys.bind (obeys_atom_of_neutral rfl) ?_
    rintro _ _ rfl
    refine (report_obeys _).bind ?_
    rintro _ _ rfl
    have hroom : n < config.maxActors := by
      rw [hp] at hroom
      exact Nat.lt_of_not_le hroom
    refine (enroll_obeys rfl hroom rfl).bind ?_
    rintro _ _ rfl
    exact (leaveTable_obeys (by simp)).bind fun _ _ hs => Obeys.pure hs

theorem findByName_obeys (name : String) :
    Obeys config s (findByName name) fun _ s' => s' = s := by
  refine (lockTable_obeys rfl).bind ?_
  rintro _ _ rfl
  refine pool_obeys.bind ?_
  rintro p _ ⟨-, rfl⟩
  exact (lockTable_obeys rfl).bind fun _ _ hs => Obeys.pure hs

theorem unregister_obeys (id : ActorId) :
    Obeys config s (unregister id) fun _ s' => s' = s := by
  refine (post_obeys _ _).bind ?_
  rintro r _ rfl
  cases r with
  | error e => exact Obeys.pure rfl
  | ok =>
    refine (revokeFor_obeys _ _).bind ?_
    rintro _ _ rfl
    exact (report_obeys _).bind fun _ _ hs => Obeys.pure hs

/-! ## Roles at work -/

variable {company : Company σ}

theorem answer_obeys (hc : company.Civil) (hs : s.desk = .away) (r : Request σ) :
    Obeys config s (answer company r) fun _ s' => s' = s := by
  cases r with
  | post target m => exact post_obeys target m
  | register role => exact register_obeys hs _ role
  | unregister id => exact unregister_obeys id
  | findByName name => exact findByName_obeys name
  | log e => exact report_obeys e
  | call c => exact obeys_of_public (hc c) hs

theorem interpret_obeys {α : Type} (hc : company.Civil) (hs : s.desk = .away)
    (program : Program σ α) : Obeys config s (interpret company program) fun _ s' => s' = s := by
  induction program with
  | done a => exact Obeys.pure rfl
  | ask r next ih =>
    refine (answer_obeys hc hs r).bind ?_
    rintro x _ rfl
    exact ih x

/-- The role gets the message that the thread holds for it. -/
theorem dispatch_obeys (hc : company.Civil) (hs : s.desk = .away) {a : ActorRef} {size k : Nat}
    {m : Message σ.Value} (ht : s.turn = .holding a size k m) :
    Obeys config s (dispatch company a m) fun _ s' => s' = { s with turn := .batch a size k } := by
  obtain ⟨drains, turn, desk, debt⟩ := s
  simp only at hs ht
  subst hs ht
  refine Obeys.bind (Obeys.atom ⟨⟨size, k, rfl⟩, trivial, nofun, nofun⟩ fun _ _ => rfl) ?_
  rintro found _ rfl
  rcases found with _ | ⟨role, ctx⟩
  · exact Obeys.pure rfl
  refine (interpret_obeys hc rfl _).bind ?_
  rintro ending _ rfl
  refine (obeys_atom_of_neutral (x := .setRole a ending.role) rfl).bind ?_
  rintro _ _ rfl
  cases ending.verdict with
  | returned o => exact Obeys.pure rfl
  | panicked p =>
    refine pool_obeys.bind ?_
    rintro q _ ⟨-, rfl⟩
    exact (report_obeys _).bind fun _ _ hs => Obeys.pure hs

/-! ## What an actor obeys -/

theorem makeSick_obeys {a : ActorRef} {size k : Nat} (ht : s.turn = .batch a size k) :
    Obeys config s (makeSick a) fun _ s' =>
      s' = { s with turn := .stopped a, debt := a :: s.debt } := by
  obtain ⟨drains, turn, desk, debt⟩ := s
  simp only at ht
  subst ht
  refine Obeys.bind (Obeys.atom ⟨⟨size, k, rfl⟩, trivial, nofun, nofun⟩ fun _ _ => rfl) ?_
  rintro _ _ rfl
  refine Obeys.bind (obeys_atom_of_neutral rfl) ?_
  rintro _ _ rfl
  refine pool_obeys.bind ?_
  rintro p _ ⟨-, rfl⟩
  refine (revokeFor_obeys _ _).bind ?_
  rintro _ _ rfl
  refine pool_obeys.bind ?_
  rintro p _ ⟨-, rfl⟩
  exact report_obeys _

theorem changeId_obeys (a : ActorRef) (id : ActorId) :
    Obeys config s (changeId a id) fun _ s' => s' = s := by
  refine pool_obeys.bind ?_
  rintro p _ ⟨-, rfl⟩
  dsimp only
  split
  · split
    · exact report_obeys _
    refine (readdress_obeys _ _).bind ?_
    rintro r _ rfl
    cases r with
    | error e => exact report_obeys _
    | ok =>
      refine (obeys_atom_of_neutral (x := .setId a id) rfl).bind ?_
      rintro _ _ rfl
      refine (obeys_atom_of_neutral (x := .reserve id) rfl).bind ?_
      rintro _ _ rfl
      exact report_obeys _
  · exact Obeys.pure rfl

/-- A control message is obeyed by the thread itself, any other goes to the role. -/
theorem handleMail_obeys (hc : company.Civil) (hs : s.desk = .away) {a : ActorRef} {size k : Nat}
    {m : Message σ.Value}
    (ht : s.turn = if m.isControl then .batch a size k else .holding a size k m) :
    Obeys config s (handleMail company a m) fun _ s' =>
      s' = { s with turn := .batch a size k } := by
  obtain ⟨source, body⟩ := m
  cases body with
  | user value => exact dispatch_obeys hc hs ht
  | control c =>
    have hkept : s = { s with turn := .batch a size k } := by
      obtain ⟨drains, turn, desk, debt⟩ := s
      simp only at ht
      subst ht
      rfl
    cases c with
    | poison => exact Obeys.pure hkept
    | setName name =>
      refine (obeys_atom_of_neutral (x := .setName a name) rfl).bind ?_
      rintro _ _ rfl
      exact Obeys.pure hkept
    | setId id =>
      refine (changeId_obeys a id).bind ?_
      rintro _ _ rfl
      exact Obeys.pure hkept

/-! ## A drain -/

/-- How a drain of `a` by a thread in stage `s` ends, before the actor is let go. -/
def DrainEnd (a : ActorRef) (s : Stage σ) (o : Outcome) (s' : Stage σ) : Prop :=
  if o = .poisoned then s' = { s with turn := .stopped a, debt := a :: s.debt }
  else ∃ size k, s' = { s with turn := .batch a size k }

theorem consume_obeys (hc : company.Civil) {a : ActorRef} {size k n : Nat} {sum : Outcome}
    (hs : s.desk = .away) (ht : s.turn = .batch a size k) (hn : n + k = size)
    (hsum : sum ≠ .poisoned) :
    Obeys config s (consume company a n sum) fun r s' =>
      (∀ o, r = some o → o ≠ .poisoned) ∧ DrainEnd a s (r.getD .poisoned) s' := by
  obtain ⟨drains, turn, desk, debt⟩ := s
  simp only at hs ht
  subst hs ht
  induction n generalizing k sum with
  | zero =>
    refine Obeys.pure ⟨?_, ?_⟩
    · rintro o ⟨⟩
      exact hsum
    · simp only [DrainEnd, Option.getD_some, if_neg hsum]
      exact ⟨_, _, rfl⟩
  | succ n ih =>
    refine Obeys.bind (Obeys.atom ⟨⟨size, k, rfl, by omega⟩, trivial, nofun, nofun⟩ fun _ _ => rfl)
      ?_
    rintro mail _ rfl
    cases mail with
    | none =>
      refine Obeys.pure ⟨?_, ?_⟩
      · rintro o ⟨⟩
        exact hsum
      · simp only [DrainEnd, Option.getD_some, if_neg hsum]
        exact ⟨_, _, rfl⟩
    | some m =>
      refine (handleMail_obeys hc rfl rfl).bind ?_
      rintro o _ rfl
      by_cases ho : o = .poisoned
      · subst ho
        refine (makeSick_obeys rfl).bind ?_
        rintro _ _ rfl
        exact Obeys.pure ⟨nofun, rfl⟩
      · have hgoes : Obeys config (⟨drains, .batch a size (k + 1), .away, debt⟩ : Stage σ)
            (do consume company a n ((← pool).config.batchPolicy.fold sum o)) fun r s' =>
              (∀ o, r = some o → o ≠ .poisoned) ∧
                DrainEnd a ⟨drains, .batch a size k, .away, debt⟩ (r.getD .poisoned) s' := by
          refine pool_obeys.bind ?_
          rintro p _ ⟨-, rfl⟩
          exact ih (by omega) (BatchPolicy.fold_ne_poisoned _ hsum ho)
        cases o with
        | poisoned => exact absurd rfl ho
        | skipped | complete | error => exact hgoes

theorem drain_obeys (hc : company.Civil) {a : ActorRef} (hs : s.desk = .away)
    (ht : s.turn = .begun a) :
    Obeys config s (drain company a) fun o s' => DrainEnd a s o s' := by
  obtain ⟨drains, turn, desk, debt⟩ := s
  simp only at hs ht
  subst hs ht
  refine Obeys.bind (Obeys.atom ⟨rfl, trivial, nofun, nofun⟩ fun _ _ => rfl) ?_
  rintro (batch : Nat) _ rfl
  split
  · exact Obeys.pure ⟨_, _, rfl⟩
  refine (consume_obeys hc rfl rfl (Nat.add_zero batch) (by simp)).bind ?_
  rintro r s' ⟨hr, hend⟩
  cases r with
  | none => exact Obeys.pure hend
  | some o =>
    refine pool_obeys.bind ?_
    rintro p _ ⟨-, rfl⟩
    refine (report_obeys _).bind ?_
    rintro _ _ rfl
    exact Obeys.pure hend

/-- What a drain of `a` leaves of a stage: a debt, if the actor has stopped. -/
def DrainLeft (a : ActorRef) (s : Stage σ) (o : Outcome) (s' : Stage σ) : Prop :=
  s' = if o = .poisoned then { s with debt := a :: s.debt } else s

theorem finish_obeys {a : ActorRef} {s₀ : Stage σ} (hs : s₀.turn = .away) {o : Outcome}
    (hend : DrainEnd a s₀ o s) :
    Obeys config s (finish a o) fun _ s' => DrainLeft a s₀ o s' := by
  obtain ⟨drains, turn, desk, debt⟩ := s₀
  simp only at hs
  subst hs
  by_cases ho : o = .poisoned
  · simp only [DrainEnd, if_pos ho] at hend
    subst hend
    refine Obeys.atom ⟨.inr ⟨rfl, ho⟩, trivial, nofun, nofun⟩ fun _ _ => ?_
    rw [DrainLeft, if_pos ho]
    rfl
  · simp only [DrainEnd, if_neg ho] at hend
    obtain ⟨size, k, rfl⟩ := hend
    refine Obeys.atom ⟨.inl ⟨size, k, rfl, ho⟩, trivial, nofun, nofun⟩ fun _ _ => ?_
    rw [DrainLeft, if_neg ho]
    rfl

/-- The thread has taken the actor, or nothing has happened. -/
theorem tryBegin_obeys (hd : s.drains) (ht : s.turn = .away) (a : ActorRef) :
    Obeys config s (tryBegin a) fun taken s' =>
      s' = if taken then { s with turn := .begun a } else s := by
  refine Obeys.atom ⟨ht, trivial, fun _ _ => hd, nofun⟩ fun taken _ => ?_
  cases taken <;> rfl

theorem process_obeys (hc : company.Civil) (hd : s.drains) (ht : s.turn = .away)
    (hs : s.desk = .away) (a : ActorRef) :
    Obeys config s (process company a) fun o s' => DrainLeft a s o s' := by
  refine (tryBegin_obeys hd ht a).bind ?_
  rintro taken _ rfl
  cases taken with
  | false => exact Obeys.pure rfl
  | true =>
    refine (drain_obeys (s := { s with turn := .begun a }) hc hs rfl).bind ?_
    rintro o s' hend
    exact (finish_obeys ht hend).bind fun _ _ hs => Obeys.pure hs

theorem processUnlocked_obeys (hc : company.Civil) (hd : s.drains) (ht : s.turn = .away)
    (hs : s.desk = .away) (a : ActorRef) :
    Obeys config s (processUnlocked company lockTable a) fun o s' => DrainLeft a s o s' := by
  refine (tryBegin_obeys hd ht a).bind ?_
  rintro taken _ rfl
  cases taken with
  | false => exact Obeys.pure rfl
  | true =>
    refine (lockTable_obeys rfl).bind ?_
    rintro _ _ rfl
    refine (drain_obeys (s := { s with turn := .begun a }) hc hs rfl).bind ?_
    rintro o s' hend
    refine (lockTable_obeys rfl).bind ?_
    rintro _ _ rfl
    exact (finish_obeys ht hend).bind fun _ _ hs => Obeys.pure hs

/-! ## Sweeps -/

theorem reportError_obeys (worker : Nat) (a : ActorRef) :
    Obeys config s (reportError worker a) fun _ s' => s' = s := by
  refine pool_obeys.bind ?_
  rintro p _ ⟨-, rfl⟩
  exact report_obeys _

/-- The count tells whether anything has to be erased. -/
theorem drainAll_obeys (hc : company.Civil) (hd : s.drains) (ht : s.turn = .away)
    (hs : s.desk = .away) (worker : Nat) (actors : List ActorRef) :
    Obeys config s (drainAll company worker actors) fun n s' =>
      (∃ debt, s' = { s with debt := debt }) ∧ (n = 0 → s' = s) := by
  induction actors generalizing s with
  | nil => exact Obeys.pure ⟨⟨s.debt, rfl⟩, fun _ => rfl⟩
  | cons a rest ih =>
    refine (process_obeys hc hd ht hs a).bind ?_
    rintro o s' hleft
    cases o with
    | poisoned =>
      rw [DrainLeft, if_pos rfl] at hleft
      subst hleft
      refine (ih (s := { s with debt := a :: s.debt }) hd ht hs).bind ?_
      rintro n s' ⟨⟨debt, rfl⟩, -⟩
      exact Obeys.pure ⟨⟨debt, rfl⟩, nofun⟩
    | error =>
      rw [DrainLeft, if_neg (by simp)] at hleft
      subst hleft
      refine (reportError_obeys worker a).bind ?_
      rintro _ _ rfl
      exact ih hd ht hs
    | skipped | complete =>
      rw [DrainLeft, if_neg (by simp)] at hleft
      subst hleft
      exact ih hd ht hs

theorem removeSick_obeys (hs : s.desk = .away) :
    Obeys config s removeSick fun _ s' => s' = { s with debt := [] } := by
  obtain ⟨drains, turn, desk, debt⟩ := s
  simp only at hs
  subst hs
  refine (claimTable_obeys rfl).bind ?_
  rintro _ _ rfl
  refine (lockTable_obeys rfl).bind ?_
  rintro _ _ rfl
  refine Obeys.bind (Obeys.atom ⟨trivial, rfl, nofun, nofun⟩ fun _ _ => rfl) ?_
  rintro _ _ rfl
  refine (tableSize_obeys rfl).bind ?_
  rintro size _ rfl
  exact (leaveTable_obeys (by simp)).bind fun _ _ hs => Obeys.pure hs

theorem snapshot_obeys : Obeys config s snapshot fun _ s' => s' = s := by
  refine (lockTable_obeys rfl).bind ?_
  rintro _ _ rfl
  refine (obeys_atom_of_neutral (x := .snapshot) rfl).bind ?_
  rintro actors _ rfl
  exact (lockTable_obeys rfl).bind fun _ _ hs => Obeys.pure hs

theorem sweepDeferred_obeys (hc : company.Civil) (worker : Nat) :
    Obeys config { drains := true } (sweepDeferred company worker)
      fun _ s' => s' = { drains := true } := by
  refine snapshot_obeys.bind ?_
  rintro actors _ rfl
  refine (drainAll_obeys hc rfl rfl rfl worker actors).bind ?_
  rintro n _ ⟨⟨debt, rfl⟩, hzero⟩
  split
  · refine (removeSick_obeys rfl).bind ?_
    rintro size _ rfl
    exact report_obeys _
  · rename_i hn
    exact Obeys.pure (hzero (Decidable.not_not.mp hn))

theorem removeActor_obeys {a : ActorRef} (hs : s.desk = .away) (ha : a ∈ s.debt)
    (worker : Nat) :
    Obeys config s (removeActor worker a) fun _ s' =>
      s' = { s with debt := s.debt.filter (· ≠ a) } := by
  obtain ⟨drains, turn, desk, debt⟩ := s
  simp only at hs ha
  subst hs
  refine (lockTable_obeys rfl).bind ?_
  rintro _ _ rfl
  refine (claimTable_obeys rfl).bind ?_
  rintro _ _ rfl
  refine (lockTable_obeys rfl).bind ?_
  rintro _ _ rfl
  have herase : Obeys config (⟨drains, turn, .writing, debt⟩ : Stage σ) (atom (.erase a))
      fun _ s' => s' = ⟨drains, turn, .writing, debt.filter (· ≠ a)⟩ := by
    refine Obeys.atom ⟨trivial, rfl, nofun, ?_⟩ fun _ _ => rfl
    rintro c ⟨⟩
    exact ha
  refine herase.bind ?_
  rintro _ _ rfl
  refine (tableSize_obeys rfl).bind ?_
  rintro size _ rfl
  refine (report_obeys _).bind ?_
  rintro _ _ rfl
  refine (leaveTable_obeys (by simp)).bind ?_
  rintro _ _ rfl
  exact lockTable_obeys rfl

theorem visitSlot_obeys (hc : company.Civil) (worker cursor : Nat) :
    Obeys config { drains := true } (visitSlot company worker cursor)
      fun _ s' => s' = { drains := true } := by
  refine (obeys_atom_of_neutral (x := .slot cursor) rfl).bind ?_
  rintro found _ rfl
  cases found with
  | none => exact Obeys.pure rfl
  | some a =>
    refine (processUnlocked_obeys hc rfl rfl rfl a).bind ?_
    rintro o s' hleft
    cases o with
    | poisoned =>
      rw [DrainLeft, if_pos rfl] at hleft
      subst hleft
      refine (removeActor_obeys rfl List.mem_cons_self worker).bind ?_
      rintro _ _ rfl
      exact Obeys.pure (by simp)
    | error =>
      rw [DrainLeft, if_neg (by simp)] at hleft
      subst hleft
      exact (reportError_obeys worker a).bind fun _ _ hs => Obeys.pure hs
    | skipped | complete =>
      rw [DrainLeft, if_neg (by simp)] at hleft
      exact Obeys.pure hleft

theorem visitSlots_obeys (hc : company.Civil) (worker fuel cursor : Nat) :
    Obeys config { drains := true } (visitSlots company worker fuel cursor)
      fun _ s' => s' = { drains := true } := by
  induction fuel generalizing cursor with
  | zero => exact Obeys.pure rfl
  | succ fuel ih =>
    refine (visitSlot_obeys hc worker cursor).bind ?_
    rintro r _ rfl
    cases r with
    | none => exact Obeys.pure rfl
    | some cursor => exact ih cursor

theorem walk_obeys (hc : company.Civil) (worker limit : Nat) :
    Obeys config { drains := true } (walk company worker limit)
      fun _ s' => s' = { drains := true } := by
  refine (lockTable_obeys rfl).bind ?_
  rintro _ _ rfl
  refine (visitSlots_obeys hc worker limit 0).bind ?_
  rintro _ _ rfl
  exact lockTable_obeys rfl

theorem sweepWithin_obeys (hc : company.Civil) (worker limit : Nat) :
    Obeys config { drains := true } (sweepWithin company worker limit)
      fun _ s' => s' = { drains := true } := by
  refine pool_obeys.bind ?_
  rintro p _ ⟨-, rfl⟩
  split
  · exact sweepDeferred_obeys hc worker
  · exact walk_obeys hc worker limit

/-! ## Routines -/

theorem act_obeys (hc : company.Civil) (r : Routine σ) :
    Obeys config (.start r) (r.act company) fun o s' =>
      s' = { Stage.start r with debt := r.left o } := by
  cases r with
  | serve program =>
    exact (interpret_obeys hc rfl program).bind fun _ _ hs => Obeys.pure hs
  | slip a m =>
    refine pool_obeys.bind ?_
    rintro p _ ⟨-, rfl⟩
    split
    · exact (obeys_atom_of_neutral rfl).bind fun _ _ hs => Obeys.pure hs
    · exact Obeys.pure rfl
  | drain a =>
    refine (process_obeys hc rfl rfl rfl a).bind ?_
    rintro o _ rfl
    cases o <;> exact Obeys.pure rfl
  | drainUnlocked a =>
    refine (lockTable_obeys rfl).bind ?_
    rintro _ _ rfl
    refine (processUnlocked_obeys hc rfl rfl rfl a).bind ?_
    rintro o _ rfl
    refine (lockTable_obeys rfl).bind ?_
    rintro _ _ rfl
    cases o <;> exact Obeys.pure rfl
  | sweep worker limit =>
    exact (sweepWithin_obeys hc worker limit).bind fun _ _ hs => Obeys.pure hs

end Act

end ActorSystem
