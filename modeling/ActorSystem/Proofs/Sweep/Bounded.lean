import ActorSystem.Proofs.Sweep.Rounds

/-!
# How long a sweep is

A sweep that nobody disturbs drains every actor of the table once. The deferred sweep leaves it at
that. The handoff sweep goes on with the actors that are registered meanwhile, each of which may
register another one before it stops and makes room: so it is as long as new actors keep coming,
and the room in the table is no bound.

* `sweep_is_bounded_iff`: when a sweep drains no more actors than there is room for.
* `heirs_outlast_the_table`: a sweep that goes on beyond that.
-/

namespace ActorSystem

section

variable {σ : Signature} {config : Config} {company : Company σ} {w : World σ}

/-- New actors are registered one by one. -/
theorem Solo.size_run {α : Type} {t : Act σ α} {s : Stage σ} {Q : α → Stage σ → Prop}
    (ht : Obeys config s t Q) (hw : Solo config w s) :
    (t.run w).2.pool.actors.size = w.pool.actors.size + (t.visits w).countP Visit.enrolls := by
  have hall := ht.induction (h := [])
    (P := fun h u _ => u.pool.actors.size = w.pool.actors.size + h.countP Visit.enrolls) ?_ hw rfl
  · obtain ⟨-, -, -, hsize⟩ := hall
    exact hsize
  intro h u s x _ hx hsize
  rw [Atom.size_effect, List.countP_append, ← Nat.add_assoc, ← hsize]
  cases x with
  | alter f => exact absurd rfl (Orderly.ne_alter hx f)
  | _ => rfl

/-- After any routines of a single worker, a sweep that is cut off only beyond the limit of the
table comes to its end, with no more drains than there is room for, exactly if it is a deferred
one, or if there is room for the actors of the table and for all that are registered during the
sweep together. -/
theorem sweep_is_bounded_iff (company : Company σ) (hc : company.Civil) (config : Config)
    (env : σ.Env) (rs : List (Routine σ)) (hrs : ∀ r ∈ rs, r.isDrain = false) (w : World σ)
    (hw : ((Routine.all company rs).run (.empty config env)).2 = w) (worker limit : Nat)
    (hlimit : config.maxActors < limit) (h : List (Visit σ))
    (hh : (Act.sweepWithin company worker limit).visits w = h) :
    (Act.sweepEnds company worker limit w ∧
        (h.filterMap Visit.drained).length ≤ config.maxActors) ↔
      config.sweep = .deferred ∨
        w.pool.table.length + h.countP Visit.enrolls ≤ config.maxActors := by
  have hsolo : Solo config w (.rest false) := hw ▸ (Solo.empty config env).all hc hrs
  have hshort : w.pool.table.length ≤ config.maxActors := hsolo.kept.short
  have hsize := Solo.size_run (Act.sweepWithin_obeys hc worker limit) (hsolo.settled true)
  rw [hh] at hsize
  cases hs : config.sweep with
  | deferred =>
    have hpool : w.pool.config.sweep = .deferred := by rw [hsolo.settings, hs]
    obtain ⟨-, hvisits⟩ := Act.sweepWithin_of_deferred company hpool worker limit
    have hdrained : h.filterMap Visit.drained = w.pool.table := by
      rw [← hh, hvisits]
      exact (Rounds.pass rfl (Act.sweepDeferred_rounds hc worker hsolo)).drained hc
    have hends : Act.sweepEnds company worker limit w = true := by
      rw [Act.sweepEnds, hpool]
    rw [hdrained]
    exact ⟨fun _ => .inl rfl, fun _ => ⟨hends, hshort⟩⟩
  | handoff =>
    have hpool : w.pool.config.sweep = .handoff := by rw [hsolo.settings, hs]
    obtain ⟨hrun, hvisits⟩ := Act.sweepWithin_of_handoff company hpool worker limit
    obtain ⟨turns, rest, hrounds, hwalked⟩ := Act.walk_rounds hc worker limit hsolo
    have hdrained : h.filterMap Visit.drained = turns := by
      rw [← hh, hvisits]
      exact (Rounds.pass rfl hrounds).drained hc
    have hends : Act.sweepEnds company worker limit w = Act.walkEnds company worker limit w := by
      rw [Act.sweepEnds, hpool]
    have hlength : turns.length + rest.length = w.pool.table.length + h.countP Visit.enrolls := by
      have horder := congrArg List.length hwalked.order
      rw [List.drop_zero, List.length_append, List.length_append, Pool.newcomers,
        List.length_range', ← hrun, hsize] at horder
      omega
    rw [hdrained, hends]
    have hnever : SweepStrategy.handoff ≠ .deferred := by decide
    rw [or_iff_right hnever]
    constructor
    · intro hbounded
      have hnone : rest.length = 0 := by rw [hwalked.all hbounded.1, List.length_nil]
      have hroom := hbounded.2
      omega
    · intro hroom
      have hturns : turns.length ≤ config.maxActors := by omega
      refine ⟨Decidable.byContradiction fun hcut => ?_, hturns⟩
      -- a sweep that is cut off has had more turns than there is room for
      have hall := hwalked.some (Bool.eq_false_iff.mpr hcut)
      omega

end

/-! ## Heirs

A company whose roles register another one and stop, for as many generations as a letter says. All
that one of them does is asked of the pool, and each of them is done at once. -/

namespace Heir

/-- A letter says how many generations are to follow. -/
def signature : Signature where
  Role := Unit
  Value := Nat
  Env := Unit
  Call := Empty
  Reply := nofun

/-- Whoever gets a letter registers an heir, leaves it the letter and stops; the last of them just
reads it. -/
def handle (ctx : Context) (m : Message Nat) : Program signature (Ending signature) := do
  match m.value? with
  | some (generations + 1) =>
    match ← ctx.register () with
    | .ok id =>
      let _ ← ctx.post id.address (.ofValue generations)
      return ⟨(), .returned .poisoned⟩
    | .error _ => return ⟨(), .returned .error⟩
  | some 0 | none => return ⟨(), .returned .complete⟩

def company : Company signature where
  behaviour := { nameOf := fun _ => "heir", handle := fun _ => handle }
  outside := nofun

/-- One actor registers in a pool with room for two, and gets a letter for so many generations. -/
def bequest (generations : Nat) : List (Routine signature) :=
  [.serve (.ask (.register ()) fun _ => .done ()),
    .serve (.ask (.post ⟨1⟩ (.ofValue generations)) fun _ => .done ())]

def config : Config := { maxActors := 2, sweep := .handoff }

def worldOf (generations : Nat) : World signature :=
  ((Routine.all company (bequest generations)).run (.empty config ())).2

end Heir

/-- If there is one heir only, the sweep ends when it has drained both. -/
theorem heir_takes_over :
    Act.sweepEnds Heir.company 0 3 (Heir.worldOf 1) ∧
      (((Act.sweepWithin Heir.company 0 3).visits (Heir.worldOf 1)).filterMap
        Visit.drained).length ≤ 2 := by
  have hroutines : ∀ r ∈ Heir.bequest 1, r.isDrain = false := by
    intro r hr
    simp only [Heir.bequest, List.mem_cons, List.not_mem_nil, or_false] at hr
    rcases hr with rfl | rfl <;> rfl
  have hroom : (Heir.worldOf 1).pool.table.length +
      ((Act.sweepWithin Heir.company 0 3).visits (Heir.worldOf 1)).countP Visit.enrolls ≤ 2 := by
    decide +kernel
  exact (sweep_is_bounded_iff Heir.company nofun Heir.config () (Heir.bequest 1) hroutines _ rfl 0 3
    (by decide) _ rfl).mpr (.inr hroom)

/-- After five drains in a pool with room for two actors the sweep is not at its end. -/
theorem heirs_outlast_the_table :
    (∀ r ∈ Heir.bequest 9, r.isDrain = false) ∧
      (Heir.worldOf 9).pool.table.length ≤ Heir.config.maxActors ∧
      Act.sweepEnds Heir.company 0 5 (Heir.worldOf 9) = false ∧
      (((Act.sweepWithin Heir.company 0 5).visits (Heir.worldOf 9)).filterMap
        Visit.drained) = [0, 1, 2, 3, 4] := by
  refine ⟨?_, by decide +kernel, by decide +kernel, by decide +kernel⟩
  intro r hr
  simp only [Heir.bequest, List.mem_cons, List.not_mem_nil, or_false] at hr
  rcases hr with rfl | rfl <;> rfl

end ActorSystem
