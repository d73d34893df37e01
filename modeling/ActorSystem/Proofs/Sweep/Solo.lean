import ActorSystem.Proofs.Crew.Table

/-!
# One thread on its own

A thread that nobody disturbs is a crew of one, and whatever it does by the rules of stages keeps
the invariants of crews. `Solo config w s` says that these hold of the world `w` and of the stage
`s` of this one thread; and then every actor that is being drained is in its hands.

* `Obeys.induction`: along an act that obeys, the invariants hold before every access.
* `Solo.all`: routines one after another leave the pool at rest, and then all actors of the table
  are idle (`Solo.idle_of_mem`).
-/

namespace ActorSystem

variable {σ : Signature} {α : Type} {config : Config} {company : Company σ}
variable {w : World σ} {s t : Stage σ} {x : Atom σ} {a : ActorRef}

/-- The stages of a crew in which only one thread has a job. -/
def only (s : Stage σ) : ThreadId → Stage σ := assign (fun _ => {}) 0 s

theorem assign_only (s t : Stage σ) : assign (only s) 0 t = only t := assign_assign _ _ _ _

/-- The others are in no stage to speak of. -/
theorem eq_zero_of_only {k : ThreadId} (h : (only s k).desk ≠ .away) : k = 0 := by
  refine Decidable.byContradiction fun hk => h ?_
  rw [only, assign_of_ne _ _ hk]

structure Solo (config : Config) (w : World σ) (s : Stage σ) : Prop where
  settings : w.pool.config = config
  writers : Writers w (only s)
  housed : Housed w (only s)
  taken : Taken w (only s)
  kept : Kept config.maxActors w (only s)
  /-- An actor that is being drained is in the hands of the thread. -/
  busy : ∀ a, w.pool.phaseOf a = some .processing → s.turn.actor? = some a

namespace Solo

/-! ## One access -/

/-- Nobody else is there to be kept out, so the thread need not wait for its turn. -/
theorem writers_visited (h : Solo config w s) (hx : s.Allows config.maxActors x) :
    Writers (x.effect w) (only (s.visit ⟨w, x⟩)) := by
  refine ⟨fun k hk => ?_, fun k l hk hl => (eq_zero_of_only hk).trans (eq_zero_of_only hl).symm⟩
  obtain rfl : k = 0 := eq_zero_of_only hk
  rw [hasWriter_effect (Orderly.ne_alter hx)]
  by_cases hclaim : x = .lock .claim
  · subst hclaim
    rfl
  have hheld : w.pool.tableLock.hasWriter := h.writers.held 0 (Desk.ne_away_of_after hclaim hk)
  cases x with
  | lock op =>
    cases op with
    | claim => rfl
    | leaveWrite => exact absurd rfl hk
    | _ => exact hheld
  | _ => exact hheld

theorem busy_visited (h : Solo config w s) (hx : s.Allows config.maxActors x)
    (ha : (x.effect w).pool.phaseOf a = some .processing) :
    (s.visit ⟨w, x⟩).turn.actor? = some a := by
  rw [Stage.actor?_visit_iff]
  rw [Atom.phaseOf_effect] at ha
  cases x with
  | alter f => exact absurd rfl (Orderly.ne_alter hx f)
  | claim c =>
    dsimp only at ha
    split at ha
    · rename_i hca
      obtain ⟨rfl, hidle⟩ := hca
      exact .inl ⟨rfl, Pool.isIdle_iff.mpr hidle⟩
    · have haway : s.turn = .away := hx.turn
      have hold := h.busy a ha
      rw [haway] at hold
      cases hold
  | sicken c =>
    have hactor := Turn.actor?_of_allows hx.turn
    dsimp only at ha hactor
    split at ha
    · obtain ⟨p, -, hp⟩ := Option.map_eq_some_iff.mp ha
      cases hp
    · exact .inr ⟨h.busy a ha, nofun, nofun⟩
  | finish c o =>
    have hactor := Turn.actor?_of_allows hx.turn
    dsimp only at ha hactor
    split at ha
    · obtain ⟨p, -, hp⟩ := Option.map_eq_some_iff.mp ha
      cases hp
    · rename_i hkept
      -- a drain that lets go without a change has stopped its actor
      have hsame : c = a := Option.some.inj (hactor.symm.trans (h.busy a ha))
      have hstopped : o = .poisoned := Decidable.byContradiction fun ho => hkept ⟨hsame, ho⟩
      rcases hx.turn with ⟨size, k, -, hne⟩ | ⟨hturn, -⟩
      · exact absurd hstopped hne
      · have hphase := h.taken.phase 0 c hactor
        rw [hsame, ha] at hphase
        have hsick : (only s 0).turn.phase = .sick := by
          change s.turn.phase = .sick
          rw [hturn]
          rfl
        rw [hsick] at hphase
        cases hphase
  | enroll y =>
    obtain ⟨n, -, -, hidle⟩ := hx.desk
    dsimp only at ha
    split at ha
    · rw [hidle] at ha
      cases ha
    · exact .inr ⟨h.busy a ha, nofun, nofun⟩
  | _ => exact .inr ⟨h.busy a ha, nofun, nofun⟩

theorem visited (h : Solo config w s) (hx : s.Allows config.maxActors x) :
    Solo config (x.effect w) (s.visit ⟨w, x⟩) := by
  have hhoused := h.housed.visited (i := 0) h.writers hx
  have htaken := h.taken.visited (i := 0) h.housed hx
  have hkept := h.kept.visited (i := 0) h.writers h.taken hx
  rw [assign_only] at hhoused htaken hkept
  exact {
    settings := (Atom.config_effect (Orderly.ne_alter hx) w).trans h.settings
    writers := h.writers_visited hx
    housed := hhoused
    taken := htaken
    kept := hkept
    busy := fun _ => h.busy_visited hx }

theorem tells (h : Solo config w s) (x : Atom σ) : x.tells config (x.answer w) := by
  cases x with
  | look => exact h.settings
  | _ => trivial

end Solo

/-! ## A whole act -/

section

variable {act : Act σ α} {Q : α → Stage σ → Prop}

/-- The induction over an act that obeys: `P` may speak of the accesses made so far. -/
theorem Obeys.induction {P : List (Visit σ) → World σ → Stage σ → Prop}
    (hstep : ∀ h w s x, Solo config w s → s.Allows config.maxActors x → P h w s →
      P (h ++ [⟨w, x⟩]) (x.effect w) (s.visit ⟨w, x⟩))
    {h : List (Visit σ)} (hact : Obeys config s act Q) (hw : Solo config w s) (hp : P h w s) :
    ∃ s', Q (act.run w).1 s' ∧ Solo config (act.run w).2 s' ∧
      P (h ++ act.visits w) (act.run w).2 s' := by
  induction act generalizing w s h with
  | done a => exact ⟨s, hact, hw, by rwa [Act.visits, List.append_nil]⟩
  | ask x next ih =>
    have hnext := ih _ (hact.2 _ (hw.tells x)) (hw.visited hact.1)
      (hstep h w s x hw hact.1 hp)
    rw [List.append_assoc] at hnext
    exact hnext

theorem Obeys.run (hact : Obeys config s act Q) (hw : Solo config w s) :
    ∃ s', Q (act.run w).1 s' ∧ Solo config (act.run w).2 s' := by
  have hall := hact.induction (P := fun _ _ _ => True) (h := [])
    (fun _ _ _ _ _ _ _ => trivial) hw trivial
  obtain ⟨s', hq, hs, -⟩ := hall
  exact ⟨s', hq, hs⟩

end

/-! ## At rest -/

/-- Whether a thread that is at rest may take actors. -/
def Stage.rest (drains : Bool) : Stage σ := { drains }

namespace Solo

variable {d : Bool}

/-- Between two routines it does not matter what the next one may do. -/
theorem settled (h : Solo config w (.rest d)) (e : Bool) : Solo config w (.rest e) := by
  have hwriters := h.writers.settled (i := 0) (t := .rest e) rfl
  have hhoused := h.housed.settled (i := 0) (t := .rest e) rfl
  have htaken := h.taken.settled (i := 0) (t := .rest e) rfl rfl
  have hkept := h.kept.settled (i := 0) (t := .rest e) rfl rfl
  rw [assign_only] at hwriters hhoused htaken hkept
  exact ⟨h.settings, hwriters, hhoused, htaken, hkept, h.busy⟩

theorem entered (h : Solo config w (.rest d)) :
    Solo config ((Atom.lock .enterRead).effect w) (.rest true) := by
  have henter : Obeys config (.rest true) (Act.lockTable .enterRead : Act σ Unit)
      fun _ s => s = .rest true := Act.lockTable_obeys rfl
  obtain ⟨s, rfl, hentered⟩ := henter.run (h.settled true)
  exact hentered

theorem empty (config : Config) (env : σ.Env) :
    Solo config (World.empty config env) (.rest false) := by
  have hsane : Sane config (Crew.empty config env) := .empty config env
  have hempty : (Crew.empty config env : Crew σ).stage = only (.rest false) := by
    funext k
    by_cases hk : k = 0
    · rw [hk, only, assign_self]
      rfl
    · rw [only, assign_of_ne _ _ hk]
      rfl
  refine ⟨rfl, hempty ▸ hsane.writers, hempty ▸ hsane.housed, hempty ▸ hsane.taken, ?_, ?_⟩
  · exact hempty ▸ (Tabled.empty config env).kept
  · intro a ha
    have hborn : a < 0 := Pool.phaseOf_isSome_iff.mp (Option.isSome_of_eq_some ha)
    exact absurd hborn (Nat.not_lt_zero a)

theorem born_of_mem (h : Solo config w s) (ha : a ∈ w.pool.table) : a < w.pool.actors.size :=
  List.mem_range.mp (h.kept.ordered.subset ha)

theorem not_sick_of_mem (h : Solo config w (.rest d)) (ha : a ∈ w.pool.table) :
    w.pool.phaseOf a ≠ some .sick := by
  intro hsick
  obtain ⟨k, hk⟩ := h.kept.owed a ha hsick
  by_cases h0 : k = 0
  · rw [h0, only, assign_self] at hk
    cases hk
  · rw [only, assign_of_ne _ _ h0] at hk
    cases hk

/-- Nobody is at work, and whoever has stopped has been erased. -/
theorem idle_of_mem (h : Solo config w (.rest d)) (ha : a ∈ w.pool.table) : w.pool.isIdle a := by
  rw [Pool.isIdle_iff]
  have hborn : (w.pool.phaseOf a).isSome := Pool.phaseOf_isSome_iff.mpr (h.born_of_mem ha)
  obtain ⟨p, hp⟩ := Option.isSome_iff_exists.mp hborn
  cases p with
  | idle => exact hp
  | processing => cases h.busy a hp
  | sick => exact absurd hp (h.not_sick_of_mem ha)

/-- Routines one after another, of which none leaves a stopped actor to its caller. -/
theorem all (hc : company.Civil) {rs : List (Routine σ)} (hrs : ∀ r ∈ rs, r.isDrain = false)
    (h : Solo config w (.rest false)) :
    Solo config ((Routine.all company rs).run w).2 (.rest false) := by
  induction rs generalizing w with
  | nil => exact h
  | cons r rs ih =>
    have hact : Obeys config (.rest r.drains) (r.act company) fun _ s => s = .rest r.drains := by
      refine (Act.act_obeys hc r).mono fun o s hs => ?_
      rw [hs, Routine.left_of_not_drain (hrs r List.mem_cons_self)]
      rfl
    obtain ⟨s, rfl, hr⟩ := hact.run (h.settled _)
    have hrest := ih (fun r hr => hrs r (List.mem_cons_of_mem _ hr)) (hr.settled false)
    rwa [Routine.all, Act.run_bind]

end Solo

end ActorSystem
