import ActorSystem.Proofs.Crew.Routines
import ActorSystem.Proofs.Pool.Lookup

/-!
# Orderly crews

In a crew that begins with an empty pool every thread is in a stage that the rest of its job
obeys, whatever the others do in between. So a step of the crew is one of three things, and none
of them needs to look into a routine: a thread begins, a thread ends, or a thread makes an access
that its stage allows.

* `Orderly.play`: crews stay orderly.
* `Orderly.change`: what a step can be.
* `Orderly.Change.between_or_visited`: the same for those who do not ask which end of a job it is.
-/

namespace ActorSystem

variable {σ : Signature}

/-- The stage after one more access. -/
def Stage.visit (s : Stage σ) (v : Visit σ) : Stage σ := s.after v.atom (v.atom.answer v.world)

/-- A thread between two jobs, or at one end of a job. -/
structure Stage.Between (s : Stage σ) : Prop where
  turn : s.turn = .away
  desk : s.desk = .away

def Job.stage (j : Job σ) : Stage σ := j.done.foldl Stage.visit (.start j.routine)

/-- A thread without a job is in no stage to speak of. -/
def Crew.stage (c : Crew σ) (i : ThreadId) : Stage σ := ((c.jobs i).map Job.stage).getD {}

theorem Crew.stage_of_idle {c : Crew σ} {i : ThreadId} (h : c.jobs i = none) : c.stage i = {} := by
  simp [Crew.stage, h]

theorem Crew.stage_of_job {c : Crew σ} {i : ThreadId} {j : Job σ} (h : c.jobs i = some j) :
    c.stage i = j.stage := by
  simp [Crew.stage, h]

theorem Crew.stage_of_jobs {c c' : Crew σ} {i : ThreadId} {o : Option (Job σ)}
    (h : c'.jobs = assign c.jobs i o) :
    c'.stage = assign c.stage i ((o.map Job.stage).getD {}) := by
  funext k
  by_cases hk : k = i
  · simp [Crew.stage, h, hk]
  · simp [Crew.stage, h, assign_of_ne _ _ hk]

theorem Crew.stage_begin (company : Company σ) (c : Crew σ) (i : ThreadId) (r : Routine σ) :
    ({ c with jobs := assign c.jobs i (some (Job.start company r)) } : Crew σ).stage =
      assign c.stage i (.start r) := Crew.stage_of_jobs (o := some (Job.start company r)) rfl

theorem Crew.stage_leave (c : Crew σ) (i : ThreadId) (j : Job σ) (o : Option Outcome) :
    (c.leave i j o).stage = assign c.stage i {} := Crew.stage_of_jobs (o := none) rfl

theorem Crew.stage_access {c : Crew σ} {i : ThreadId} {j : Job σ} (hj : c.jobs i = some j)
    (x : Atom σ) (next : x.Answer → Act σ (Option Outcome)) :
    (c.access i j x next).stage = assign c.stage i ((c.stage i).visit ⟨c.world, x⟩) := by
  rw [Crew.stage_of_jobs rfl, Crew.stage_of_job hj]
  simp [Job.stage]

theorem Job.stage_drains (j : Job σ) : j.stage.drains = j.routine.drains := by
  obtain ⟨r, done, rest⟩ := j
  simp only [Job.stage]
  suffices h : ∀ s : Stage σ, (done.foldl Stage.visit s).drains = s.drains from h _
  induction done with
  | nil => exact fun _ => rfl
  | cons v done ih => exact fun s => ih (s.visit v)

structure Orderly (config : Config) (c : Crew σ) : Prop where
  settings : c.world.pool.config = config
  obeys : ∀ i j, c.jobs i = some j → Obeys config j.stage j.rest fun o s =>
    s = { Stage.start j.routine with debt := j.routine.left o }

namespace Orderly

variable {config : Config} {company : Company σ} {c c' : Crew σ}

theorem empty (config : Config) (env : σ.Env) : Orderly config (Crew.empty config env) where
  settings := rfl
  obeys i j hj := by cases hj

theorem ne_alter {limit : Nat} {s : Stage σ} {x : Atom σ} (hx : s.Allows limit x)
    (f : World σ → World σ) : x ≠ .alter f := by
  rintro rfl
  exact hx.turn

theorem answer_tells (ho : Orderly config c) (x : Atom σ) : x.tells config (x.answer c.world) := by
  cases x with
  | look => exact ho.settings
  | _ => trivial

theorem step (hc : company.Civil) (ho : Orderly config c) {m : Move σ}
    (h : c.step company m = some c') : Orderly config c' := by
  rcases Crew.step_cases h with ⟨i, r, -, -, rfl⟩ | ⟨i, j, o, -, -, -, rfl⟩ |
    ⟨i, j, x, next, -, hj, hrest, -, rfl⟩
  · refine ⟨ho.settings, fun k l hl => ?_⟩
    rcases assign_cases hl with ⟨rfl, hjob⟩ | ⟨-, hjob⟩
    · cases hjob
      exact Act.act_obeys hc r
    · exact ho.obeys k l hjob
  · refine ⟨ho.settings, fun k l hl => ?_⟩
    rcases assign_cases hl with ⟨rfl, hjob⟩ | ⟨-, hjob⟩
    · cases hjob
    · exact ho.obeys k l hjob
  · have hobeys := ho.obeys i j hj
    rw [hrest] at hobeys
    refine ⟨?_, fun k l hl => ?_⟩
    · exact (Atom.config_effect (ne_alter hobeys.1) c.world).trans ho.settings
    rcases assign_cases hl with ⟨rfl, hjob⟩ | ⟨-, hjob⟩
    · cases hjob
      simp only [Job.stage, List.foldl_append, List.foldl_cons, List.foldl_nil]
      exact hobeys.2 _ (ho.answer_tells x)
    · exact ho.obeys k l hjob

theorem play (hc : company.Civil) (ho : Orderly config c) {ms : List (Move σ)}
    (h : c.play company ms = some c') : Orderly config c' :=
  Moves.play_induction (fun _ _ _ ho hs => ho.step hc hs) ho h

/-- What a step is to somebody who knows the stages only. -/
inductive Change (config : Config) (c c' : Crew σ) : Prop where
  | begun (i : ThreadId) (r : Routine σ) (idle : c.jobs i = none) (world : c'.world = c.world)
    (past : c'.past = c.past) (ended : c'.ended = c.ended)
    (stage : c'.stage = assign c.stage i (.start r))
  | left (i : ThreadId) (r : Routine σ) (o : Option Outcome)
    (done : c.stage i = { Stage.start r with debt := r.left o }) (world : c'.world = c.world)
    (past : c'.past = c.past) (ended : c'.ended = c.ended ++ [(r, o)])
    (stage : c'.stage = assign c.stage i {})
  | visited (i : ThreadId) (x : Atom σ) (allows : (c.stage i).Allows config.maxActors x)
    (ready : x.ready c.world) (world : c'.world = x.effect c.world)
    (past : c'.past = c.past ++ [(i, ⟨c.world, x⟩)]) (ended : c'.ended = c.ended)
    (stage : c'.stage = assign c.stage i ((c.stage i).visit ⟨c.world, x⟩))

theorem change (ho : Orderly config c) {m : Move σ} (h : c.step company m = some c') :
    Change config c c' := by
  rcases Crew.step_cases h with ⟨i, r, -, hi, rfl⟩ | ⟨i, j, o, -, hj, hrest, rfl⟩ |
    ⟨i, j, x, next, -, hj, hrest, hready, rfl⟩
  · exact .begun i r hi rfl rfl rfl (Crew.stage_begin company c i r)
  · have hobeys := ho.obeys i j hj
    rw [hrest] at hobeys
    refine .left i j.routine o ?_ rfl rfl rfl (Crew.stage_leave c i j o)
    rw [Crew.stage_of_job hj]
    exact hobeys
  · have hobeys := ho.obeys i j hj
    rw [hrest] at hobeys
    refine .visited i x ?_ hready rfl rfl rfl (Crew.stage_access hj x next)
    rw [Crew.stage_of_job hj]
    exact hobeys.1

/-- At the two ends of a job a thread has no actor and is not at the desk, and nothing happens to
the world: whoever asks for no more than this has two cases to look at. -/
theorem Change.between_or_visited (h : Change config c c') :
    (∃ i t, (c.stage i).Between ∧ t.Between ∧ t.debt = [] ∧ c'.world = c.world ∧
      c'.past = c.past ∧ c'.stage = assign c.stage i t) ∨
    ∃ i x, (c.stage i).Allows config.maxActors x ∧ x.ready c.world ∧
      c'.world = x.effect c.world ∧ c'.past = c.past ++ [(i, ⟨c.world, x⟩)] ∧
      c'.stage = assign c.stage i ((c.stage i).visit ⟨c.world, x⟩) := by
  cases h with
  | begun i r idle world past ended stage =>
    refine .inl ⟨i, .start r, ?_, ⟨rfl, rfl⟩, rfl, world, past, stage⟩
    rw [Crew.stage_of_idle idle]
    exact ⟨rfl, rfl⟩
  | left i r o done world past ended stage =>
    refine .inl ⟨i, {}, ?_, ⟨rfl, rfl⟩, rfl, world, past, stage⟩
    rw [done]
    exact ⟨rfl, rfl⟩
  | visited i x allows ready world past ended stage =>
    exact .inr ⟨i, x, allows, ready, world, past, stage⟩

end Orderly

end ActorSystem
