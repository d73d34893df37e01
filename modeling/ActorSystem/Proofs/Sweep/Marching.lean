import ActorSystem.Proofs.Crew.Table
import ActorSystem.Proofs.Sweep.Pace

/-!
# Crews of handoff sweeps

Any number of threads register and unregister actors, post letters and sweep, and none of them
drains an actor but in a sweep. In such a crew every thread keeps its pace, actors are erased one by
one, and whoever owes an actor still finds it in the table.

* `Crew.Sweeping.induction`: what every step keeps is true throughout.
* `Crew.Sweeping.marching`: the pace.
* `Crew.Sweeping.owed`: the actors that have stopped and are yet to be erased.
-/

namespace ActorSystem

variable {σ : Signature} {config : Config} {company : Company σ} {c c' : Crew σ} {w : World σ}
variable {i k : ThreadId} {a : ActorRef}

/-! ## Crews that sweep -/

/-- The crew has come about from an empty pool, and its threads drain only in sweeps. -/
def Crew.Sweeping (company : Company σ) (config : Config) (env : σ.Env) (c : Crew σ) : Prop :=
  ∃ ms, (∀ i r, .begin i r ∈ ms → r.isDrain = false) ∧
    (Crew.empty config env).play company ms = some c

namespace Crew.Sweeping

variable {env : σ.Env}

theorem step (h : Sweeping company config env c) {m : Move σ}
    (hm : ∀ i r, m = .begin i r → r.isDrain = false) (hstep : c.step company m = some c') :
    Sweeping company config env c' := by
  obtain ⟨ms, hms, hplay⟩ := h
  refine ⟨ms ++ [m], fun i r hr => ?_, ?_⟩
  · rcases List.mem_append.mp hr with hr | hr
    · exact hms i r hr
    · exact hm i r (List.mem_singleton.mp hr).symm
  · exact Moves.play_snoc.mpr ⟨c, hplay, hstep⟩

theorem induction {P : Crew σ → Prop} (hempty : P (Crew.empty config env))
    (hstep : ∀ c c' m, Sweeping company config env c →
      (∀ i r, m = .begin i r → r.isDrain = false) → P c → c.step company m = some c' → P c')
    (h : Sweeping company config env c) : P c := by
  obtain ⟨ms, hms, hplay⟩ := h
  have hall : Sweeping company config env c ∧ P c := by
    refine Moves.play_induction_of (P := fun c => Sweeping company config env c ∧ P c)
      (A := fun m => ∀ i r, m = .begin i r → r.isDrain = false) ?_ ?_
      ⟨⟨[], nofun, rfl⟩, hempty⟩ hplay
    · rintro c c' m hm ⟨hsweeping, hp⟩ hm'
      exact ⟨hsweeping.step hm hm', hstep c c' m hsweeping hm hp hm'⟩
    · rintro m hm i r rfl
      exact hms i r hm
  exact hall.2

theorem tabled (hc : company.Civil) (h : Sweeping company config env c) :
    Sane config c ∧ Tabled config c := by
  obtain ⟨ms, hms, hplay⟩ := h
  obtain ⟨hsane, -, htabled⟩ := Tabled.of_play hc hms hplay
  exact ⟨hsane, htabled⟩

theorem once (hc : company.Civil) (h : Sweeping company config env c) (a : ActorRef) :
    Once a c := by
  obtain ⟨ms, -, hplay⟩ := h
  exact ((Sane.empty config env).induction hc (P := Once a)
    (fun _ _ hc hchange h => h.step hc hchange) (.empty config env) hplay).2

end Crew.Sweeping

/-! ## Keeping pace -/

/-- The job has kept pace so far and will go on to. -/
structure Job.Marching (j : Job σ) : Prop where
  handed : Handed j.done
  heeds : Heeds InPace j.done j.rest fun _ _ => True

theorem Job.Marching.allows {j : Job σ} (h : j.Marching) {x : Atom σ}
    {next : x.Answer → Act σ (Option Outcome)} (hrest : j.rest = .ask x next) (w : World σ) :
    (paceOf j.done).allows x := by
  have hheeds := h.heeds
  rw [hrest] at hheeds
  exact (hheeds w).1 h.handed

theorem Crew.Sweeping.marching {env : σ.Env} (hc : company.Civil) (hs : config.sweep = .handoff)
    (h : Sweeping company config env c) : ∀ i j, c.jobs i = some j → j.Marching := by
  refine h.induction (P := fun c => ∀ i j, c.jobs i = some j → j.Marching) ?_ ?_
  · intro i j hj
    cases hj
  intro c c' m hsweeping hm h hstep i j hj
  rcases job_cases hstep hj with ⟨r, rfl, rfl, -⟩ | ⟨l, x, next, hl, hrest, rfl, -⟩ | ⟨hold, -⟩
  · refine ⟨?_, ?_⟩
    · intro v hv
      cases hv
    · exact (Act.act_paced hc (hm i r rfl) [] fun _ => rfl).mono fun _ _ _ => trivial
  · have hheeds := (h i l hl).heeds
    rw [hrest] at hheeds
    refine ⟨handed_snoc.mpr ⟨(h i l hl).handed, ?_⟩, (hheeds c.world).2⟩
    rw [(hsweeping.tabled hc).1.orderly.settings]
    exact hs
  · exact h i j hold

/-! ## Owing -/

/-- If nobody erases more than one actor at once, whoever owes an actor still finds it in the
table. -/
theorem owed_visited {s : ThreadId → Stage σ} {limit : Nat} {x : Atom σ} (hkept : Kept limit w s)
    (htaken : Taken w s) (halone : ∀ k l a, a ∈ (s k).debt → a ∈ (s l).debt → k = l)
    (hx : (s i).Allows limit x) (hone : x ≠ .eraseSick)
    (h : ∀ k a, a ∈ (s k).debt → a ∈ w.pool.table)
    (ha : a ∈ (assign s i ((s i).visit ⟨w, x⟩) k).debt) : a ∈ (x.effect w).pool.table := by
  have hstays : a ∈ w.pool.table → x ≠ .erase a → a ∈ (x.effect w).pool.table := by
    intro hin hne
    rw [Atom.table_effect]
    cases x with
    | alter f => exact absurd rfl (Orderly.ne_alter hx f)
    | eraseSick => exact absurd rfl hone
    | erase b =>
      refine (List.mem_erase_of_ne ?_).mpr hin
      rintro rfl
      exact hne rfl
    | enroll y => exact List.mem_append_left _ hin
    | _ => exact hin
  by_cases hki : k = i
  · subst hki
    rw [assign_self] at ha
    rcases mem_debtAfter ha with hsicken | ⟨hold, -, hne⟩
    · obtain rfl : x = .sicken a := hsicken
      obtain ⟨size, taken, hturn⟩ := hx.turn
      have hphase := htaken.phase k a (by rw [hturn]; rfl)
      rw [hturn] at hphase
      refine hstays (Decidable.byContradiction fun hout => ?_) nofun
      have hborn := Pool.phaseOf_isSome_iff.mp (Option.isSome_of_eq_some hphase)
      rw [hkept.healthy a hborn hout] at hphase
      cases hphase
    · exact hstays (h k a hold) hne
  · rw [assign_of_ne _ _ hki] at ha
    refine hstays (h k a ha) ?_
    rintro rfl
    exact hki (halone k i a ha (hx.erase a rfl))

namespace Crew.Sweeping

variable {env : σ.Env}

/-- In a crew of handoff sweeps actors are erased one by one. -/
theorem spares (hc : company.Civil) (hs : config.sweep = .handoff)
    (h : Sweeping company config env c) : ∀ e ∈ c.past, e.2.atom ≠ .eraseSick := by
  refine h.induction (P := fun c => ∀ e ∈ c.past, e.2.atom ≠ .eraseSick) ?_ ?_
  · intro e he
    cases he
  intro c c' m hsweeping _ h hstep e he
  rcases step_cases hstep with ⟨i, r, -, -, rfl⟩ | ⟨i, j, o, -, -, -, rfl⟩ |
    ⟨i, j, x, next, -, hj, hrest, -, rfl⟩
  · exact h e he
  · exact h e he
  · rcases List.mem_append.mp he with he | he
    · exact h e he
    · rw [List.mem_singleton.mp he]
      have hallows := (hsweeping.marching hc hs i j hj).allows hrest c.world
      rintro rfl
      cases hp : paceOf j.done <;> rw [hp] at hallows <;> cases hallows

theorem owed (hc : company.Civil) (hs : config.sweep = .handoff)
    (h : Sweeping company config env c) : ∀ k a, a ∈ (c.stage k).debt → a ∈ c.world.pool.table := by
  refine h.induction (P := fun c => ∀ k a, a ∈ (c.stage k).debt → a ∈ c.world.pool.table) ?_ ?_
  · intro k a ha
    cases ha
  intro c c' m hsweeping hm h hstep k a ha
  obtain ⟨hsane, htabled⟩ := hsweeping.tabled hc
  have hspares := (hsweeping.step hm hstep).spares hc hs
  rcases (hsane.orderly.change hstep).between_or_visited with ⟨i, t, -, ht, hdebt, hw, -, hs⟩ |
    ⟨i, x, hx, -, hw, hp, hs⟩
  · rw [hs] at ha
    rw [hw]
    exact h k a ((Once.settled ht.turn hdebt k).2 ha).2
  · rw [hs] at ha
    rw [hw]
    refine owed_visited htabled.kept hsane.taken (fun k l b => (hsweeping.once hc b).debtor k l) hx
      (hspares (i, ⟨c.world, x⟩) ?_) h ha
    rw [hp]
    exact List.mem_append_right _ List.mem_cons_self

end Crew.Sweeping

end ActorSystem
