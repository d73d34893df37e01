import ActorSystem.Proofs.Crew.Exclusion

/-!
# The table of actors

Any number of threads register actors, send letters and sweep, and all of them edit the one
table. Who writes it has the lock to itself and has counted it before; so the table stays in the
order of registration and within its limit. Only sweeps erase, each what it has stopped itself
or what it finds stopped; so no healthy actor is ever missing, and a stopped one is in the table
only as long as the sweep that stopped it has not erased it.

* `Kept`: the invariant.
* `table_is_kept`: what holds of the table at any time.
-/

namespace ActorSystem

variable {σ : Signature} {w : World σ} {s : ThreadId → Stage σ} {i : ThreadId} {limit : Nat}
variable {x : Atom σ} {a : ActorRef}

/-! ## Who changes the table -/

/-- The size of the table, as far as the thread has counted. -/
def Desk.seen : Desk → Option Nat
  | sized n | boxed n _ => some n
  | _ => none

/-- Who has not claimed the lock leaves the table alone. -/
theorem table_effect_of_away (hx : (s i).Allows limit x) (hs : (s i).desk = .away) :
    (x.effect w).pool.table = w.pool.table := by
  have hdesk := hx.desk
  rw [hs] at hdesk
  rw [Atom.table_effect]
  cases x with
  | alter f => exact absurd rfl (Orderly.ne_alter hx f)
  | enroll y =>
    obtain ⟨n, hn, -, -⟩ := hdesk
    cases hn
  | eraseSick => cases hdesk
  | erase c => cases hdesk
  | _ => rfl

/-- What a thread has counted is the table as it leaves it. -/
theorem seen_visit (hx : (s i).Allows limit x)
    (hsized : ∀ n, (s i).desk.seen = some n → w.pool.table.length = n) {n : Nat}
    (hn : ((s i).visit ⟨w, x⟩).desk.seen = some n) : (x.effect w).pool.table.length = n := by
  have hdesk := hx.desk
  rw [Stage.visit, Stage.after] at hn
  rw [Atom.table_effect]
  dsimp only at hn
  generalize (s i).desk = d at hn hdesk hsized
  cases x with
  | alter f => exact absurd rfl (Orderly.ne_alter hx f)
  | enroll y =>
    -- the count is out of date, and the thread forgets it
    obtain ⟨m, rfl, -, -⟩ := hdesk
    cases hn
  | eraseSick =>
    obtain rfl : d = .writing := hdesk
    cases hn
  | erase c =>
    obtain rfl : d = .writing := hdesk
    cases hn
  | tableSize =>
    cases d with
    | writing => exact Option.some.inj hn
    | _ => exact hsized n hn
  | createMailbox c =>
    cases d with
    | sized m =>
      refine hsized n ?_
      revert hn
      cases (Atom.createMailbox c).answer w <;> exact id
    | _ => exact hsized n hn
  | lock op =>
    cases op with
    | claim | leaveWrite => cases hn
    | _ => exact hsized n hn
  | _ => exact hsized n hn

/-- An actor leaves the table only when it has stopped. -/
theorem sick_of_erased (hd : ∀ c, c ∈ (s i).debt → w.pool.phaseOf c = some .sick)
    (hx : (s i).Allows limit x) (ha : a ∈ w.pool.table) (hgone : a ∉ (x.effect w).pool.table) :
    w.pool.phaseOf a = some .sick := by
  rw [Atom.table_effect] at hgone
  cases x with
  | alter f => exact absurd rfl (Orderly.ne_alter hx f)
  | enroll y => exact absurd (List.mem_append_left _ ha) hgone
  | eraseSick =>
    rw [← Pool.isSick_iff]
    simpa [ha] using hgone
  | erase c =>
    by_cases hca : a = c
    · subst hca
      exact hd a (hx.erase a rfl)
    · exact absurd ((List.mem_erase_of_ne hca).mpr ha) hgone
  | _ => exact absurd ha hgone

/-- Only one access makes an actor stop. -/
theorem sick_before (hx : (s i).Allows limit x)
    (ha : (x.effect w).pool.phaseOf a = some .sick) :
    w.pool.phaseOf a = some .sick ∨ x = .sicken a := by
  rw [Atom.phaseOf_effect] at ha
  cases x with
  | alter f => exact absurd rfl (Orderly.ne_alter hx f)
  | claim c =>
    dsimp only at ha
    split at ha
    · cases ha
    · exact .inl ha
  | sicken c =>
    dsimp only at ha
    split at ha
    · rename_i hca
      exact .inr (hca ▸ rfl)
    · exact .inl ha
  | finish c o =>
    dsimp only at ha
    split at ha
    · obtain ⟨p, -, hp⟩ := Option.map_eq_some_iff.mp ha
      cases hp
    · exact .inl ha
  | enroll y =>
    obtain ⟨n, -, -, hidle⟩ := hx.desk
    dsimp only at ha
    split at ha
    · rw [hidle] at ha
      cases ha
    · exact .inl ha
  | _ => exact .inl ha

/-! ## The invariant -/

structure Kept (limit : Nat) (w : World σ) (s : ThreadId → Stage σ) : Prop where
  sized : ∀ k n, (s k).desk.seen = some n → w.pool.table.length = n
  ordered : w.pool.table.Sublist (List.range w.pool.actors.size)
  short : w.pool.table.length ≤ limit
  healthy : ∀ a < w.pool.actors.size, a ∉ w.pool.table → w.pool.phaseOf a = some .sick
  owed : ∀ a ∈ w.pool.table, w.pool.phaseOf a = some .sick → ∃ k, a ∈ (s k).debt

namespace Kept

theorem nodup (h : Kept limit w s) : w.pool.table.Nodup := h.ordered.nodup List.nodup_range

/-- A thread without debts begins or leaves a job. -/
theorem settled (h : Kept limit w s) {t : Stage σ} (hi : (s i).debt = []) (ht : t.desk = .away) :
    Kept limit w (assign s i t) := by
  refine ⟨fun k n hk => ?_, h.ordered, h.short, h.healthy, fun a ha hsick => ?_⟩
  · by_cases hki : k = i
    · rw [hki, assign_self, ht] at hk
      cases hk
    · rw [assign_of_ne _ _ hki] at hk
      exact h.sized k n hk
  · obtain ⟨k, hk⟩ := h.owed a ha hsick
    have hki : k ≠ i := by
      rintro rfl
      rw [hi] at hk
      cases hk
    exact ⟨k, by rwa [assign_of_ne _ _ hki]⟩

theorem ordered_visited (h : Kept limit w s) (hx : (s i).Allows limit x) :
    (x.effect w).pool.table.Sublist (List.range (x.effect w).pool.actors.size) := by
  rw [Atom.table_effect, Atom.size_effect]
  cases x with
  | alter f => exact absurd rfl (Orderly.ne_alter hx f)
  | enroll y =>
    dsimp only
    rw [List.range_succ]
    exact h.ordered.append (List.Sublist.refl _)
  | eraseSick => exact List.filter_sublist.trans h.ordered
  | erase c => exact List.erase_sublist.trans h.ordered
  | _ => exact h.ordered

theorem short_visited (h : Kept limit w s) (hx : (s i).Allows limit x) :
    (x.effect w).pool.table.length ≤ limit := by
  rw [Atom.table_effect]
  cases x with
  | alter f => exact absurd rfl (Orderly.ne_alter hx f)
  | enroll y =>
    obtain ⟨n, hn, hroom, -⟩ := hx.desk
    have hsize := h.sized i n (by rw [hn]; rfl)
    rw [List.length_append, List.length_singleton]
    omega
  | eraseSick => exact Nat.le_trans (List.length_filter_le _ _) h.short
  | erase c => exact Nat.le_trans List.length_erase_le h.short
  | _ => exact h.short

theorem healthy_visited (h : Kept limit w s) (ht : Taken w s) (hx : (s i).Allows limit x)
    (hsize : a < (x.effect w).pool.actors.size) (ha : a ∉ (x.effect w).pool.table) :
    (x.effect w).pool.phaseOf a = some .sick := by
  refine ht.sick_visited hx ?_
  by_cases hold : a < w.pool.actors.size
  · by_cases hin : a ∈ w.pool.table
    · exact sick_of_erased (ht.debtor i) hx hin ha
    · exact h.healthy a hold hin
  · -- the actor is the one that has just been registered
    rw [Atom.size_effect] at hsize
    rw [Atom.table_effect] at ha
    cases x with
    | alter f => exact absurd rfl (Orderly.ne_alter hx f)
    | enroll y =>
      have heq : a = w.pool.actors.size := Nat.eq_of_lt_succ_of_not_lt hsize hold
      exact absurd (by simp [heq]) ha
    | _ => exact absurd hsize hold

theorem owed_visited (h : Kept limit w s) (hx : (s i).Allows limit x)
    (ha : a ∈ (x.effect w).pool.table) (hsick : (x.effect w).pool.phaseOf a = some .sick) :
    ∃ k, a ∈ (assign s i ((s i).visit ⟨w, x⟩) k).debt := by
  rcases sick_before hx hsick with hold | rfl
  · have hin : a ∈ w.pool.table := by
      rw [Atom.table_effect] at ha
      cases x with
      | alter f => exact absurd rfl (Orderly.ne_alter hx f)
      | enroll y =>
        rcases List.mem_append.mp ha with hin | hnew
        · exact hin
        · have hborn : a < w.pool.actors.size :=
            Pool.phaseOf_isSome_iff.mp (by rw [hold]; rfl)
          exact absurd (List.mem_singleton.mp hnew) (Nat.ne_of_lt hborn)
      | eraseSick => exact (List.mem_filter.mp ha).1
      | erase c => exact List.mem_of_mem_erase ha
      | _ => exact ha
    obtain ⟨k, hk⟩ := h.owed a hin hold
    refine ⟨k, ?_⟩
    by_cases hki : k = i
    · subst hki
      rw [assign_self]
      cases x with
      | sicken c => exact List.mem_cons_of_mem c hk
      | eraseSick =>
        -- no stopped actor is left
        rw [Atom.table_effect] at ha
        have hwell := (List.mem_filter.mp ha).2
        rw [Pool.isSick_iff.mpr hold] at hwell
        cases hwell
      | erase c =>
        rw [Atom.table_effect] at ha
        have hne := (h.nodup.mem_erase_iff.mp ha).1
        exact List.mem_filter.mpr ⟨hk, by simpa using hne⟩
      | _ => exact hk
    · rwa [assign_of_ne _ _ hki]
  · exact ⟨i, by simp [Stage.visit, Stage.after, debtAfter]⟩

theorem visited (h : Kept limit w s) (hw : Writers w s) (ht : Taken w s)
    (hx : (s i).Allows limit x) : Kept limit (x.effect w) (assign s i ((s i).visit ⟨w, x⟩)) := by
  refine ⟨fun k n hk => ?_, h.ordered_visited hx, h.short_visited hx,
    fun a => h.healthy_visited ht hx, fun a => h.owed_visited hx⟩
  by_cases hki : k = i
  · rw [hki, assign_self] at hk
    exact seen_visit hx (h.sized i) hk
  · rw [assign_of_ne _ _ hki] at hk
    -- whoever has counted the table keeps the others away from it
    have haway : (s i).desk = .away := by
      refine Decidable.byContradiction fun hi => hki (hw.single k i ?_ hi)
      rintro hk'
      rw [hk'] at hk
      cases hk
    rw [table_effect_of_away hx haway]
    exact h.sized k n hk

end Kept

/-! ## Debts and sweeps -/

namespace Job

/-- The thread has stopped `a` for this job and has not erased it since. -/
def Owes (j : Job σ) (a : ActorRef) : Prop :=
  ∃ before w after, j.done = before ++ ⟨w, .sicken a⟩ :: after ∧
    ∀ v ∈ after, v.atom ≠ .eraseSick ∧ v.atom ≠ .erase a

theorem owes_of_debt {j : Job σ} (h : a ∈ j.stage.debt) : j.Owes a := by
  obtain ⟨r, done, rest⟩ := j
  simp only [Job.stage] at h
  suffices hsplit : ∀ s : Stage σ, a ∈ (done.foldl Stage.visit s).debt →
      (a ∈ s.debt ∧ ∀ v ∈ done, v.atom ≠ .eraseSick ∧ v.atom ≠ .erase a) ∨
        (⟨r, done, rest⟩ : Job σ).Owes a by
    rcases hsplit _ h with ⟨hstart, -⟩ | howes
    · cases hstart
    · exact howes
  clear h
  induction done with
  | nil => exact fun s hs => .inl ⟨hs, fun v hv => by cases hv⟩
  | cons v done ih =>
    intro s hs
    rcases ih (s.visit v) hs with ⟨hv, hdone⟩ | ⟨before, w, after, rfl, hafter⟩
    · rcases mem_debtAfter hv with hsicken | ⟨hs, hne⟩
      · obtain ⟨w, x⟩ := v
        obtain rfl : x = .sicken a := hsicken
        exact .inr ⟨[], w, done, rfl, hdone⟩
      · exact .inl ⟨hs, List.forall_mem_cons.mpr ⟨hne, hdone⟩⟩
    · exact .inr ⟨v :: before, w, after, rfl, hafter⟩

end Job

/-- Who may not take actors has none and owes none. -/
def Stage.Free (s : Stage σ) : Prop := s.drains = false → s.turn = .away ∧ s.debt = []

theorem Stage.free_visit {s : Stage σ} (h : s.Free) (hx : s.Allows limit x) :
    (s.visit ⟨w, x⟩).Free := by
  intro hd
  have hclaim := hx.claim
  have hturn := hx.turn
  obtain ⟨drains, turn, desk, debt⟩ := s
  obtain rfl : drains = false := hd
  obtain ⟨rfl, rfl⟩ : turn = .away ∧ debt = [] := h rfl
  cases x with
  | claim c => exact absurd (hclaim c rfl) nofun
  | sicken c =>
    obtain ⟨size, k, hk⟩ := hturn
    cases hk
  | _ => exact ⟨rfl, rfl⟩

/-! ## Crews that only sweep -/

/-- A drain on its own, which leaves a stopped actor to its caller. -/
def Routine.isDrain : Routine σ → Bool
  | drain _ | drainUnlocked _ => true
  | serve _ | slip .. | sweep .. => false

theorem Routine.left_of_not_drain {r : Routine σ} (h : r.isDrain = false) (o : Option Outcome) :
    r.left o = [] := by
  cases r with
  | drain a | drainUnlocked a => cases h
  | _ => rfl

variable {config : Config} {company : Company σ} {c c' : Crew σ}

structure Hired (c : Crew σ) : Prop where
  jobs : ∀ i j, c.jobs i = some j → j.routine.isDrain = false
  ended : ∀ e ∈ c.ended, e.1.isDrain = false

theorem Hired.step (h : Hired c) {m : Move σ}
    (hm : ∀ i r, m = .begin i r → r.isDrain = false) (hstep : c.step company m = some c') :
    Hired c' := by
  refine ⟨fun k l hl => ?_, ?_⟩
  · rcases Crew.job_cases hstep hl with ⟨r, hbegin, rfl, -⟩ | ⟨j, x, next, hj, -, rfl, -⟩ | ⟨hl, -⟩
    · exact hm k r hbegin
    · exact h.jobs k j hj
    · exact h.jobs k l hl
  · rcases Crew.step_cases hstep with ⟨i, r, -, -, rfl⟩ | ⟨i, j, o, -, hj, -, rfl⟩ |
      ⟨i, j, x, next, -, -, -, -, rfl⟩
    · exact h.ended
    · intro e he
      rcases List.mem_append.mp he with he | he
      · exact h.ended e he
      · rw [List.mem_singleton.mp he]
        exact h.jobs i j hj
    · exact h.ended

/-! ## The history of the table -/

namespace Visit

def enrolls (v : Visit σ) : Bool :=
  match v.atom with
  | .enroll _ => true
  | _ => false

/-- The actor is in the table before this access, and not after it. -/
def Erases (v : Visit σ) (a : ActorRef) : Prop :=
  a ∈ v.world.pool.table ∧ a ∉ (v.atom.effect v.world).pool.table

end Visit

/-- How many actors have been registered. -/
def Crew.registrations (c : Crew σ) : Nat := c.past.countP (·.2.enrolls)

structure Tabled (config : Config) (c : Crew σ) : Prop where
  kept : Kept config.maxActors c.world c.stage
  free : ∀ k, (c.stage k).Free
  registered : c.world.pool.actors.size = c.registrations
  erased : ∀ e ∈ c.past, ∀ a, e.2.Erases a → e.2.world.pool.phaseOf a = some .sick
  dispatched : ∀ e ∈ c.past, ∀ a m, e.2.atom = .dispatch a m → a ∈ e.2.world.pool.table

namespace Tabled

theorem empty (config : Config) (env : σ.Env) : Tabled config (Crew.empty config env) where
  kept := {
    sized := fun k n hk => by cases hk
    ordered := List.Sublist.refl _
    short := Nat.zero_le _
    healthy := fun a ha => absurd ha (Nat.not_lt_zero a)
    owed := fun a ha => by cases ha }
  free k _ := ⟨rfl, rfl⟩
  registered := rfl
  erased e he := by cases he
  dispatched e he := by cases he

theorem settled (h : Tabled config c) {t : Stage σ} (hi : (c.stage i).debt = [])
    (hdesk : t.desk = .away) (ht : t.Free) (hw : c'.world = c.world) (hp : c'.past = c.past)
    (hs : c'.stage = assign c.stage i t) : Tabled config c' := by
  refine ⟨?_, fun k => ?_, ?_, ?_, ?_⟩
  · rw [hw, hs]
    exact h.kept.settled hi hdesk
  · rw [hs]
    by_cases hki : k = i
    · rw [hki, assign_self]
      exact ht
    · rw [assign_of_ne _ _ hki]
      exact h.free k
  · rw [hw, Crew.registrations, hp]
    exact h.registered
  · rw [hp]
    exact h.erased
  · rw [hp]
    exact h.dispatched

/-- Whoever hands a message to a role has the actor in its hands, and the actor is healthy. -/
theorem listed_of_dispatch (h : Kept limit w s) (ht : Taken w s) {m : Message σ.Value}
    (hx : (s i).Allows limit (.dispatch a m)) : a ∈ w.pool.table := by
  obtain ⟨size, k, hk⟩ := hx.turn
  have hphase := ht.phase i a (by rw [hk]; rfl)
  rw [hk] at hphase
  have hborn : a < w.pool.actors.size := Pool.phaseOf_isSome_iff.mp (by rw [hphase]; rfl)
  refine Decidable.byContradiction fun hout => ?_
  rw [h.healthy a hborn hout] at hphase
  cases hphase

theorem visited (h : Tabled config c) (hc : Sane config c)
    (hx : (c.stage i).Allows config.maxActors x) (hw : c'.world = x.effect c.world)
    (hp : c'.past = c.past ++ [(i, ⟨c.world, x⟩)])
    (hs : c'.stage = assign c.stage i ((c.stage i).visit ⟨c.world, x⟩)) : Tabled config c' := by
  have hpast : ∀ {P : ThreadId × Visit σ → Prop}, (∀ e ∈ c.past, P e) → P (i, ⟨c.world, x⟩) →
      ∀ e ∈ c'.past, P e := by
    intro P hold hnew e he
    rw [hp] at he
    rcases List.mem_append.mp he with he | he
    · exact hold e he
    · rwa [List.mem_singleton.mp he]
  refine ⟨?_, fun k => ?_, ?_, hpast h.erased fun a ha => ?_, hpast h.dispatched ?_⟩
  · rw [hw, hs]
    exact h.kept.visited hc.writers hc.taken hx
  · rw [hs]
    by_cases hki : k = i
    · rw [hki, assign_self]
      exact Stage.free_visit (h.free i) hx
    · rw [assign_of_ne _ _ hki]
      exact h.free k
  · rw [hw, Crew.registrations, hp, List.countP_append, ← Crew.registrations, ← h.registered,
      Atom.size_effect]
    cases x with
    | alter f => exact absurd rfl (Orderly.ne_alter hx f)
    | _ => rfl
  · exact sick_of_erased (hc.taken.debtor i) hx ha.1 ha.2
  · rintro a m rfl
    exact listed_of_dispatch h.kept hc.taken hx

theorem step (hc : Sane config c) (hhired : Hired c') (hchange : Orderly.Change config c c')
    (h : Tabled config c) : Tabled config c' := by
  rcases hchange with ⟨i, r, hidle, hw, hp, -, hs⟩ | ⟨i, r, o, hdone, hw, hp, he, hs⟩ |
    ⟨i, x, hx, -, hw, hp, -, hs⟩
  · have hdebt : (c.stage i).debt = [] := by rw [Crew.stage_of_idle hidle]
    exact h.settled hdebt rfl (fun _ => ⟨rfl, rfl⟩) hw hp hs
  · have hr : r.isDrain = false := hhired.ended (r, o) (by simp [he])
    have hdebt : (c.stage i).debt = [] := by
      rw [hdone]
      exact Routine.left_of_not_drain hr o
    exact h.settled hdebt rfl (fun _ => ⟨rfl, rfl⟩) hw hp hs
  · exact h.visited hc hx hw hp hs

/-- In a crew that drains only in sweeps. -/
theorem of_play (hc : company.Civil) {env : σ.Env} {ms : List (Move σ)}
    (hms : ∀ i r, .begin i r ∈ ms → r.isDrain = false)
    (hplay : (Crew.empty config env).play company ms = some c) :
    Sane config c ∧ Hired c ∧ Tabled config c := by
  refine Moves.play_induction_of (P := fun c => Sane config c ∧ Hired c ∧ Tabled config c)
    (A := fun m => ∀ i r, m = .begin i r → r.isDrain = false) ?_ ?_
    ⟨.empty config env, ⟨nofun, nofun⟩, .empty config env⟩ hplay
  · rintro c c' m hm ⟨hsane, hhired, h⟩ hstep
    have hhired' := hhired.step hm hstep
    exact ⟨hsane.step hc hstep, hhired', h.step hsane hhired' (hsane.orderly.change hstep)⟩
  · rintro m hm i r rfl
    exact hms i r hm

end Tabled

/-! ## What holds of the table -/

structure Tidy (config : Config) (c : Crew σ) : Prop where
  /-- Actors are numbered in order of registration. -/
  registered : c.world.pool.actors.size = c.registrations
  ordered : c.world.pool.table.Sublist (List.range c.registrations)
  nodup : c.world.pool.table.Nodup
  short : c.world.pool.table.length ≤ config.maxActors
  erased : ∀ e ∈ c.past, ∀ a, e.2.Erases a → e.2.world.pool.phaseOf a = some .sick
  healthy : ∀ a < c.registrations, c.world.pool.phaseOf a ≠ some .sick → a ∈ c.world.pool.table
  dispatched : ∀ e ∈ c.past, ∀ a m, e.2.atom = .dispatch a m → a ∈ e.2.world.pool.table
  /-- A stopped actor is still to be erased by the sweep that stopped it. -/
  owed : ∀ a ∈ c.world.pool.table, c.world.pool.phaseOf a = some .sick →
    ∃ i j worker visits, c.jobs i = some j ∧ j.routine = .sweep worker visits ∧ j.Owes a
  clean : (∀ i j, c.jobs i = some j → ∀ worker visits, j.routine ≠ .sweep worker visits) →
    ∀ a ∈ c.world.pool.table, c.world.pool.phaseOf a ≠ some .sick

/-- Whatever any number of threads that drain only in sweeps have done, in whichever order. -/
theorem table_is_kept (company : Company σ) (hc : company.Civil) (config : Config) (env : σ.Env)
    (ms : List (Move σ)) (hms : ∀ i r, .begin i r ∈ ms → r.isDrain = false) (c : Crew σ)
    (hplay : (Crew.empty config env).play company ms = some c) : Tidy config c := by
  obtain ⟨-, hhired, h⟩ := Tabled.of_play hc hms hplay
  have howed : ∀ a ∈ c.world.pool.table, c.world.pool.phaseOf a = some .sick →
      ∃ i j worker visits, c.jobs i = some j ∧ j.routine = .sweep worker visits ∧ j.Owes a := by
    intro a ha hsick
    obtain ⟨i, hi⟩ := h.kept.owed a ha hsick
    have hdrains : (c.stage i).drains = true := by
      refine Decidable.byContradiction fun hd => ?_
      rw [(h.free i (by simpa using hd)).2] at hi
      cases hi
    cases hj : c.jobs i with
    | none =>
      rw [Crew.stage_of_idle hj] at hdrains
      cases hdrains
    | some j =>
      rw [Crew.stage_of_job hj] at hi hdrains
      rw [j.stage_drains] at hdrains
      have hr := hhired.jobs i j hj
      cases hroutine : j.routine with
      | sweep worker visits => exact ⟨i, j, worker, visits, hj, hroutine, Job.owes_of_debt hi⟩
      | drain b | drainUnlocked b =>
        rw [hroutine] at hr
        cases hr
      | serve program | slip b m =>
        rw [hroutine] at hdrains
        cases hdrains
  refine ⟨h.registered, h.registered ▸ h.kept.ordered, h.kept.nodup, h.kept.short, h.erased,
    fun a ha hwell => ?_, h.dispatched, howed, fun hnone a ha hsick => ?_⟩
  · rw [← h.registered] at ha
    exact Decidable.byContradiction fun hout => hwell (h.kept.healthy a ha hout)
  · obtain ⟨i, j, worker, visits, hj, hroutine, -⟩ := howed a ha hsick
    exact hnone i j hj worker visits hroutine

/-- Two mutes are registered and the first one gets a poison message; one of two sweeps has
stopped it, while the other one is waiting to visit it. -/
def Mute.twoSweeps : List (Move Mute.signature) :=
  [.begin 0 Mute.register] ++ List.replicate 12 (.go 0) ++
    [.begin 0 Mute.register] ++ List.replicate 12 (.go 0) ++
    [.begin 0 (Mute.post ⟨1⟩ .poison)] ++ List.replicate 3 (.go 0) ++
    [.begin 1 (.sweep 0 0), .begin 2 (.sweep 1 0)] ++ List.replicate 4 (.go 2) ++
    List.replicate 8 (.go 1)

theorem twoSweeps_kept : ∃ c, (Crew.empty {} ()).play Mute.company Mute.twoSweeps = some c ∧
    c.world.pool.table = [0, 1] ∧ c.world.pool.isSick 0 ∧ Tidy {} c := by
  have hrun : ((Crew.empty {} ()).play Mute.company Mute.twoSweeps).map (fun c =>
      (c.world.pool.table, c.world.pool.isSick 0)) = some ([0, 1], true) := by decide +kernel
  obtain ⟨c, hplay, hc⟩ := Option.map_eq_some_iff.mp hrun
  simp only [Prod.mk.injEq] at hc
  obtain ⟨htable, hsick⟩ := hc
  have hsweeps : ∀ i r, .begin i r ∈ Mute.twoSweeps → r.isDrain = false := by
    intro i r hr
    simp only [Mute.twoSweeps, Mute.register, Mute.post, List.mem_append, List.mem_cons,
      List.mem_replicate, List.not_mem_nil, Move.begin.injEq, reduceCtorEq, and_false, or_false] at hr
    rcases hr with (((⟨-, rfl⟩ | ⟨-, rfl⟩) | ⟨-, rfl⟩) | ⟨-, rfl⟩ | ⟨-, rfl⟩) <;> rfl
  exact ⟨c, hplay, htable, hsick,
    table_is_kept Mute.company nofun {} () Mute.twoSweeps hsweeps c hplay⟩

end ActorSystem
