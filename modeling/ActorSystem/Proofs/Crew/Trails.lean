import ActorSystem.Crew

/-!
# Trails

The past of a crew is a list of accesses, and the trail of a thread is the part of it that the
thread has made. Other threads may come between the accesses of a trail; what an act comes to when
they do is `Came`.

* `Crew.play_split`: every access of the past was a step.
* `Crew.passes_of_split`: and so was every access of a trail.
* `Crew.play_undisturbed`: what a thread does that nobody disturbs.
-/

namespace ActorSystem

variable {σ : Signature} {α : Type} {company : Company σ} {c c' d : Crew σ} {i : ThreadId}
variable {v : Visit σ}

/-! ## Acts among others -/

namespace Act

/-- The accesses `vs`, whatever others did between them, have carried out the act, which came
to `r`. -/
def Came : Act σ α → List (Visit σ) → α → Prop
  | .done a, vs, r => vs = [] ∧ r = a
  | .ask x next, vs, r => ∃ w rest, vs = ⟨w, x⟩ :: rest ∧ Came (next (x.answer w)) rest r

/-- With nobody in between an act comes to what it comes to. -/
theorem came_run (t : Act σ α) (w : World σ) : t.Came (t.visits w) (t.run w).1 := by
  induction t generalizing w with
  | done a => exact ⟨rfl, rfl⟩
  | ask x next ih => exact ⟨w, _, rfl, ih (x.answer w) (x.effect w)⟩

end Act

namespace Crew

/-! ## The past -/

theorem past_step {m : Move σ} (h : c.step company m = some c') :
    c'.past = c.past ∨ ∃ i v, m = .go i ∧ v.world = c.world ∧
      c'.world = v.atom.effect v.world ∧ c'.past = c.past ++ [(i, v)] := by
  rcases step_cases h with ⟨i, r, -, -, rfl⟩ | ⟨i, j, o, -, -, -, rfl⟩ |
    ⟨i, j, x, next, rfl, -, -, -, rfl⟩
  · exact .inl rfl
  · exact .inl rfl
  · exact .inr ⟨i, ⟨c.world, x⟩, rfl, rfl, rfl, rfl⟩

theorem past_play {ms : List (Move σ)} (h : c.play company ms = some d) :
    ∃ vs, d.past = c.past ++ vs := by
  refine Moves.play_induction (P := fun d : Crew σ => ∃ vs, d.past = c.past ++ vs) ?_
    ⟨[], (List.append_nil _).symm⟩ h
  rintro d d' m ⟨vs, hpast⟩ hstep
  rcases past_step hstep with hsame | ⟨i, v, -, -, -, hmore⟩
  · exact ⟨vs, hsame.trans hpast⟩
  · exact ⟨vs ++ [(i, v)], by rw [hmore, hpast, List.append_assoc]⟩

/-- Every access of the past was a step. -/
theorem play_split {ms : List (Move σ)} (h : c.play company ms = some d)
    {before after : List (ThreadId × Visit σ)}
    (hpast : d.past = c.past ++ (before ++ (i, v) :: after)) :
    ∃ ms₁ ms₂ c₁ c₂, c.play company ms₁ = some c₁ ∧ c₁.step company (.go i) = some c₂ ∧
      c₂.play company ms₂ = some d ∧ c₁.world = v.world ∧ c₁.past = c.past ++ before ∧
      c₂.past = c₁.past ++ [(i, v)] ∧ c₂.world = v.atom.effect v.world := by
  induction ms generalizing c before with
  | nil =>
    cases h
    have hlength := congrArg List.length hpast
    simp at hlength
  | cons m ms ih =>
    obtain ⟨c', hstep, hplay⟩ := Moves.play_cons.mp h
    rcases past_step hstep with hsame | ⟨k, u, rfl, hworld, heffect, hmore⟩
    · rw [← hsame] at hpast
      obtain ⟨ms₁, ms₂, c₁, c₂, h₁, hrest⟩ := ih hplay hpast
      rw [hsame] at hrest
      exact ⟨m :: ms₁, ms₂, c₁, c₂, Moves.play_cons.mpr ⟨c', hstep, h₁⟩, hrest⟩
    · obtain ⟨vs, hgrown⟩ := past_play hplay
      rw [hgrown, hmore, List.append_assoc] at hpast
      have hcons := List.append_cancel_left hpast
      cases before with
      | nil =>
        obtain ⟨hfirst, -⟩ := List.cons.inj hcons
        cases hfirst
        have hnone := (List.append_nil c.past).symm
        exact ⟨[], ms, c, c', rfl, hstep, hplay, hworld.symm, hnone, hmore, heffect⟩
      | cons e before =>
        obtain ⟨hfirst, hrest⟩ := List.cons.inj hcons
        subst hfirst
        have hvs : vs = before ++ (i, v) :: after := hrest
        rw [hvs] at hgrown
        obtain ⟨ms₁, ms₂, c₁, c₂, h₁, hgo, hend, hv, hbefore, hrest⟩ := ih hplay hgrown
        refine ⟨.go k :: ms₁, ms₂, c₁, c₂, Moves.play_cons.mpr ⟨c', hstep, h₁⟩, hgo, hend, hv, ?_,
          hrest⟩
        rw [hbefore, hmore, List.append_assoc]
        rfl

/-! ## The part of one thread -/

/-- The accesses of thread `k`, oldest first. -/
def trail (c : Crew σ) (k : ThreadId) : List (Visit σ) :=
  c.past.filterMap fun v => if v.1 = k then some v.2 else none

theorem trail_snoc (hp : c'.past = c.past ++ [(i, v)]) (k : ThreadId) :
    c'.trail k = if k = i then c.trail k ++ [v] else c.trail k := by
  rw [trail, hp, List.filterMap_append]
  by_cases hki : k = i
  · simp [trail, hki]
  · simp [trail, hki, Ne.symm hki]

theorem trail_of_past (hp : c'.past = c.past) : c'.trail = c.trail := by
  funext k
  rw [trail, hp]
  rfl

theorem mem_past_of_trail {k : ThreadId} (hv : v ∈ c.trail k) : (k, v) ∈ c.past := by
  obtain ⟨⟨l, u⟩, hu, hsome⟩ := List.mem_filterMap.mp hv
  dsimp only at hsome
  split at hsome
  · rename_i hlk
    cases hsome
    rwa [← hlk]
  · cases hsome

/-- On the way from `c` to `d` thread `i` has made access `v`, which led from `c₁` to `c₂`. -/
structure Passes (company : Company σ) (c d : Crew σ) (i : ThreadId) (v : Visit σ)
    (c₁ c₂ : Crew σ) : Prop where
  before : ∃ ns, c.play company ns = some c₁
  reached : ∃ ns, c.play company ns = some c₂
  onward : ∃ ns, c₂.play company ns = some d
  world : c₁.world = v.world
  effect : c₂.world = v.atom.effect v.world
  past : c₂.past = c₁.past ++ [(i, v)]

/-- The accesses of the thread up to `v` were the same in `c₁`. -/
theorem passes_of_split {ns : List (Move σ)} {before after : List (Visit σ)}
    (h : c.play company ns = some d) (ht : d.trail i = c.trail i ++ (before ++ v :: after)) :
    ∃ c₁ c₂, Passes company c d i v c₁ c₂ ∧ c₁.trail i = c.trail i ++ before := by
  obtain ⟨us, hus⟩ := past_play h
  have hnew : us.filterMap (fun u => if u.1 = i then some u.2 else none) =
      before ++ v :: after := by
    rw [trail, hus, List.filterMap_append] at ht
    exact List.append_cancel_left ht
  obtain ⟨us₁, us₂, rfl, hbefore, hrest⟩ := List.filterMap_eq_append_iff.mp hnew
  obtain ⟨others, e, us₃, rfl, hothers, he, -⟩ := List.filterMap_eq_cons_iff.mp hrest
  obtain ⟨k, u⟩ := e
  obtain ⟨rfl, rfl⟩ : k = i ∧ u = v := by
    dsimp only at he
    split at he
    · exact ⟨‹_›, Option.some.inj he⟩
    · cases he
  have hpast : d.past = c.past ++ ((us₁ ++ others) ++ (k, u) :: us₃) := by
    rw [hus, List.append_assoc us₁]
  obtain ⟨ns₁, ns₂, c₁, c₂, h₁, hgo, h₂, hworld, hearlier, hpast, heffect⟩ := play_split h hpast
  have hreached := Moves.play_snoc.mpr ⟨c₁, h₁, hgo⟩
  refine ⟨c₁, c₂, ⟨⟨ns₁, h₁⟩, ⟨_, hreached⟩, ⟨ns₂, h₂⟩, hworld, heffect, hpast⟩, ?_⟩
  rw [trail, hearlier, List.filterMap_append, List.filterMap_append, hbefore,
    List.filterMap_eq_nil_iff.mpr hothers, List.append_nil]
  rfl

theorem passes_of_trail {ns : List (Move σ)} {vs : List (Visit σ)}
    (h : c.play company ns = some d) (ht : d.trail i = c.trail i ++ vs) (hv : v ∈ vs) :
    ∃ c₁ c₂, Passes company c d i v c₁ c₂ := by
  obtain ⟨before, after, rfl⟩ := List.append_of_mem hv
  obtain ⟨c₁, c₂, hpasses, -⟩ := passes_of_split h ht
  exact ⟨c₁, c₂, hpasses⟩

/-- The last move made a thread begin. -/
theorem jobs_of_begin {ms : List (Move σ)} {r : Routine σ}
    (h : c.play company (ms ++ [.begin i r]) = some d) :
    d.jobs i = some (Job.start company r) := by
  obtain ⟨e, -, hstep⟩ := Moves.play_snoc.mp h
  rcases step_cases hstep with ⟨k, t, hm, -, rfl⟩ | ⟨k, j, o, hm, -⟩ | ⟨k, j, x, next, hm, -⟩
  · cases hm
    exact assign_self e.jobs i _
  · cases hm
  · cases hm

/-! ## A thread by itself -/

/-- Thread `i`, whose job is `j`, has carried an act out and goes on with `rest`. -/
def carry (c : Crew σ) (i : ThreadId) (j : Job σ) (t : Act σ α)
    (rest : α → Act σ (Option Outcome)) : Crew σ :=
  let job := { j with done := j.done ++ t.visits c.world, rest := rest (t.run c.world).1 }
  { c with
    world := (t.run c.world).2
    jobs := assign c.jobs i (some job)
    past := c.past ++ (t.visits c.world).map (i, ·) }

theorem carry_done {j : Job σ} {x : α} {rest : α → Act σ (Option Outcome)}
    (hj : c.jobs i = some j) (hrest : j.rest = rest x) : c.carry i j (.done x) rest = c := by
  have hjob : some { j with done := j.done ++ [], rest := rest x } = c.jobs i := by
    rw [hj, List.append_nil, ← hrest]
  simp only [carry, Act.visits, Act.run, List.map_nil]
  rw [hjob, assign_same, List.append_nil]

/-- A thread that nobody disturbs carries an act out as `Act.run` does, unless it has to wait. -/
theorem play_undisturbed {t : Act σ α} {rest : α → Act σ (Option Outcome)} {j : Job σ}
    (hj : c.jobs i = some j) (hrest : j.rest = t >>= rest) :
    c.play company (List.replicate (t.visits c.world).length (.go i)) =
      if (t.visits c.world).all fun v => v.atom.ready v.world then some (c.carry i j t rest)
      else none := by
  induction t generalizing c j with
  | done x => exact congrArg some (carry_done hj hrest).symm
  | ask x next ih =>
    have hask : j.rest = .ask x fun y => next y >>= rest := hrest
    have hstep : c.step company (.go i) =
        if x.ready c.world then some (c.access i j x fun y => next y >>= rest) else none := by
      simp only [step, hj, hask]
    have hgo := ih (x.answer c.world) (c := c.access i j x fun y => next y >>= rest)
      (assign_self _ _ _) rfl
    have hcarry : (c.access i j x fun y => next y >>= rest).carry i
        ⟨j.routine, j.done ++ [⟨c.world, x⟩], next (x.answer c.world) >>= rest⟩
        (next (x.answer c.world)) rest = c.carry i j (.ask x next) rest := by
      simp [carry, access, Act.visits, Act.run]
    simp only [Act.visits, List.length_cons, List.replicate_succ, List.all_cons,
      Bool.and_eq_true, play, Moves.play, hstep]
    by_cases hready : x.ready c.world
    · rw [if_pos hready, Option.bind_some]
      refine hgo.trans ?_
      rw [hcarry]
      simp only [hready, true_and]
      rfl
    · rw [if_neg hready, if_neg fun h => hready h.1]
      rfl

theorem trail_of_alone {t : Act σ α} {rest : α → Act σ (Option Outcome)} {j : Job σ}
    (hj : c.jobs i = some j) (hrest : j.rest = t >>= rest)
    (h : c.play company (List.replicate (t.visits c.world).length (.go i)) = some d) :
    d.trail i = c.trail i ++ t.visits c.world := by
  rw [play_undisturbed hj hrest] at h
  split at h
  · cases h
    simp only [trail, carry, List.filterMap_append, List.filterMap_map, Function.comp_def, if_true,
      List.filterMap_some]
  · cases h

end Crew

end ActorSystem
