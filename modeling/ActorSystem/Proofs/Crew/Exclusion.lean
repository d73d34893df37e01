import ActorSystem.Proofs.Crew.Turns
import ActorSystem.Proofs.Mute

/-!
# Drains exclude each other

Whatever the threads of a crew do and in whichever order, an actor is in the hands of one thread
at most, from the moment at which this thread takes it to the moment at which it lets it go. From
this follows what a drain relies on: nobody else changes the phase of its actor or takes its
mail.

* `drains_exclude`: the guarantees of a drain.
-/

namespace ActorSystem

variable {σ : Signature} {config : Config} {company : Company σ} {c c' d : Crew σ}

/-- What holds of every crew that began with an empty pool. -/
structure Sane (config : Config) (c : Crew σ) : Prop where
  orderly : Orderly config c
  writers : Writers c.world c.stage
  housed : Housed c.world c.stage
  taken : Taken c.world c.stage

namespace Sane

theorem empty (config : Config) (env : σ.Env) : Sane config (Crew.empty config env) where
  orderly := .empty config env
  writers := ⟨fun _ hk => absurd rfl hk, fun _ _ hk => absurd rfl hk⟩
  housed := by
    have hnone : ∀ a, (Crew.empty config env : Crew σ).world.pool.boxOf a = none := by
      intro a
      simp [Crew.empty, World.empty, Pool.boxOf, Pool.actor?]
    refine ⟨fun a b hb => ?_, fun a c b hb => ?_, fun k n b hk => by cases hk⟩ <;>
      · rw [hnone] at hb
        cases hb
  taken := by
    constructor
    · intro k l a hk
      cases hk
    · intro k a hk
      cases hk
    · intro k a hk
      cases hk
    · intro k a hk
      cases hk

theorem step (hc : company.Civil) (h : Sane config c) {m : Move σ}
    (hm : c.step company m = some c') : Sane config c' := by
  have ho := h.orderly.step hc hm
  rcases (h.orderly.change hm).between_or_visited with ⟨i, t, -, ht, hdebt, hw, -, hs⟩ |
    ⟨i, x, hx, hr, hw, -, hs⟩
  · refine ⟨ho, ?_, ?_, ?_⟩ <;> rw [hw, hs]
    · exact h.writers.settled ht.desk
    · exact h.housed.settled ht.desk
    · exact h.taken.settled ht.turn hdebt
  · refine ⟨ho, ?_, ?_, ?_⟩ <;> rw [hw, hs]
    · exact h.writers.visited hx hr
    · exact h.housed.visited h.writers hx
    · exact h.taken.visited h.housed hx

/-- What every step of a sane crew keeps, every run of it keeps. -/
theorem induction (hc : company.Civil) (h : Sane config c) {P : Crew σ → Prop}
    (hstep : ∀ c c', Sane config c → Orderly.Change config c c' → P c → P c')
    (hp : P c) {ms : List (Move σ)} (hplay : c.play company ms = some c') :
    Sane config c' ∧ P c' := by
  refine Moves.play_induction (P := fun c => Sane config c ∧ P c) ?_ ⟨h, hp⟩ hplay
  rintro c c' m ⟨h, hp⟩ hm
  exact ⟨h.step hc hm, hstep c c' h (h.orderly.change hm) hp⟩

theorem play (hc : company.Civil) (h : Sane config c) {ms : List (Move σ)}
    (hplay : c.play company ms = some c') : Sane config c' :=
  (h.induction hc (P := fun _ => True) (fun _ _ _ _ _ => trivial) trivial hplay).1

/-- Nobody ever gets a stopped actor to work again. -/
theorem sick_play (hc : company.Civil) (h : Sane config c) {a : ActorRef}
    (ha : c.world.pool.phaseOf a = some .sick) {ms : List (Move σ)}
    (hplay : c.play company ms = some c') : c'.world.pool.phaseOf a = some .sick := by
  refine (h.induction hc (P := fun c => c.world.pool.phaseOf a = some .sick) ?_ ha hplay).2
  rintro c c' h hchange ha
  rcases hchange.between_or_visited with ⟨i, t, -, -, -, hw, -⟩ | ⟨i, x, hx, -, hw, -⟩
  · rwa [hw]
  · rw [hw]
    exact h.taken.sick_visited hx ha

end Sane

/-! ## Having an actor -/

namespace Job

/-- The thread has taken `a` for this job and has not let it go. -/
def Has (j : Job σ) (a : ActorRef) : Prop :=
  ∃ before w after, j.done = before ++ ⟨w, .claim a⟩ :: after ∧ w.pool.isIdle a ∧
    ∀ v ∈ after, v.Keeps

/-- The stage says which actor the thread has. -/
theorem has_iff {j : Job σ} {a : ActorRef} : j.Has a ↔ j.stage.turn.actor? = some a := by
  obtain ⟨r, done, rest⟩ := j
  simp only [Job.stage]
  suffices hfold : ∀ s : Stage σ, (done.foldl Stage.visit s).turn.actor? = some a ↔
      (s.turn.actor? = some a ∧ ∀ v ∈ done, v.Keeps) ∨ (⟨r, done, rest⟩ : Job σ).Has a by
    rw [hfold]
    simp [Stage.start, Turn.actor?]
  induction done with
  | nil => simp [Has]
  | cons v done ih =>
    intro s
    rw [List.foldl_cons, ih, Stage.actor?_visit_iff, List.forall_mem_cons]
    constructor
    · rintro (⟨⟨hclaim, hidle⟩ | ⟨hs, hv⟩, hdone⟩ | ⟨before, w, after, rfl, hidle, hafter⟩)
      · obtain ⟨w, x⟩ := v
        obtain rfl : x = .claim a := hclaim
        exact .inr ⟨[], w, done, rfl, hidle, hdone⟩
      · exact .inl ⟨hs, hv, hdone⟩
      · exact .inr ⟨v :: before, w, after, rfl, hidle, hafter⟩
    · rintro (⟨hs, hv, hdone⟩ | ⟨before, w, after, hsplit, hidle, hafter⟩)
      · exact .inl ⟨.inr ⟨hs, hv⟩, hdone⟩
      · cases before with
        | nil =>
          obtain ⟨rfl, rfl⟩ := List.cons.inj hsplit
          exact .inl ⟨.inl ⟨rfl, hidle⟩, hafter⟩
        | cons u before =>
          obtain ⟨-, rfl⟩ := List.cons.inj hsplit
          exact .inr ⟨before, w, after, rfl, hidle, hafter⟩

end Job

/-! ## Stopping once -/

/-- The drain of `a` that lets go with this access has stopped it. -/
def Visit.poisons (v : Visit σ) (a : ActorRef) : Bool :=
  match v.atom with
  | .finish c o => c = a && o = .poisoned
  | _ => false

namespace Crew

def turn (c : Crew σ) (i : ThreadId) : Turn σ := (c.stage i).turn

/-- How many drains of `a`, on their own or within a sweep, have come to `poisoned`. -/
def poisonings (c : Crew σ) (a : ActorRef) : Nat := c.past.countP fun v => v.2.poisons a

/-- How many calls for a drain of `a` have returned `poisoned`. -/
def poisonedReturns (c : Crew σ) (a : ActorRef) : Nat := c.ended.countP fun r => a ∈ r.1.left r.2

end Crew

structure Once (a : ActorRef) (c : Crew σ) : Prop where
  ends : c.poisonings a ≤ 1
  gone : 0 < c.poisonings a →
    c.world.pool.phaseOf a = some .sick ∧ ∀ k, (c.stage k).turn.actor? ≠ some a
  returns : c.poisonedReturns a ≤ 1
  paid : 0 < c.poisonedReturns a →
    c.world.pool.phaseOf a = some .sick ∧ ∀ k, a ∉ (c.stage k).debt
  debtor : ∀ k l, a ∈ (c.stage k).debt → a ∈ (c.stage l).debt → k = l

namespace Once

variable {a : ActorRef} {i : ThreadId}

/-- The stages after a thread has begun or left its job. -/
theorem settled {f : ThreadId → Stage σ} {t : Stage σ} (ht : t.turn = .away) (hd : t.debt = [])
    (k : ThreadId) :
    ((assign f i t k).turn.actor? = some a → (f k).turn.actor? = some a) ∧
      (a ∈ (assign f i t k).debt → k ≠ i ∧ a ∈ (f k).debt) := by
  by_cases hki : k = i
  · rw [hki, assign_self, ht, hd]
    exact ⟨nofun, nofun⟩
  · rw [assign_of_ne _ _ hki]
    exact ⟨id, fun h => ⟨hki, h⟩⟩

section

variable {t : Stage σ} (ht : t.turn = .away) (hd : t.debt = []) (hs : c'.stage = assign c.stage i t)

include ht hd hs

theorem gone_settled (h : Once a c) (hw : c'.world = c.world) (hp : c'.past = c.past)
    (hpos : 0 < c'.poisonings a) :
    c'.world.pool.phaseOf a = some .sick ∧ ∀ k, (c'.stage k).turn.actor? ≠ some a := by
  rw [Crew.poisonings, hp] at hpos
  obtain ⟨hsick, hnobody⟩ := h.gone hpos
  rw [hw, hs]
  exact ⟨hsick, fun k hk => hnobody k ((settled ht hd k).1 hk)⟩

theorem debtor_settled (h : Once a c) {k l : ThreadId} (hk : a ∈ (c'.stage k).debt)
    (hl : a ∈ (c'.stage l).debt) : k = l := by
  rw [hs] at hk hl
  exact h.debtor k l ((settled ht hd k).2 hk).2 ((settled ht hd l).2 hl).2

end

theorem begun (h : Once a c) {r : Routine σ} (hw : c'.world = c.world) (hp : c'.past = c.past)
    (he : c'.ended = c.ended) (hs : c'.stage = assign c.stage i (.start r)) : Once a c' := by
  refine ⟨?_, h.gone_settled rfl rfl hs hw hp, ?_, fun hpos => ?_,
    fun k l => h.debtor_settled rfl rfl hs⟩
  · rw [Crew.poisonings, hp]
    exact h.ends
  · rw [Crew.poisonedReturns, he]
    exact h.returns
  · rw [Crew.poisonedReturns, he] at hpos
    rw [hw, hs]
    exact ⟨(h.paid hpos).1, fun k hk => (h.paid hpos).2 k (settled rfl rfl k |>.2 hk).2⟩

theorem left (hc : Sane config c) (h : Once a c) {r : Routine σ} {o : Option Outcome}
    (hdone : c.stage i = { Stage.start r with debt := r.left o }) (hw : c'.world = c.world)
    (hp : c'.past = c.past) (he : c'.ended = c.ended ++ [(r, o)])
    (hs : c'.stage = assign c.stage i {}) : Once a c' := by
  have hcount : c'.poisonedReturns a = c.poisonedReturns a + if a ∈ r.left o then 1 else 0 := by
    rw [Crew.poisonedReturns, he, List.countP_append, List.countP_singleton]
    simp only [decide_eq_true_eq]
    rfl
  -- whoever returns with a stopped actor is the first to do so
  have hfirst : a ∈ r.left o → c.poisonedReturns a = 0 := by
    intro ha
    refine Nat.eq_zero_of_not_pos fun hpos => ?_
    refine (h.paid hpos).2 i ?_
    rw [hdone]
    exact ha
  refine ⟨?_, h.gone_settled rfl rfl hs hw hp, ?_, fun hpos => ?_,
    fun k l => h.debtor_settled rfl rfl hs⟩
  · rw [Crew.poisonings, hp]
    exact h.ends
  · rw [hcount]
    split
    · rename_i ha
      simp [hfirst ha]
    · exact h.returns
  · rw [hcount] at hpos
    rw [hw, hs]
    split at hpos
    · rename_i ha
      have hi : a ∈ (c.stage i).debt := by
        rw [hdone]
        exact ha
      refine ⟨hc.taken.debtor i a hi, fun k hk => ?_⟩
      obtain ⟨hki, hk⟩ := (settled rfl rfl k).2 hk
      exact hki (h.debtor k i hk hi)
    · exact ⟨(h.paid hpos).1, fun k hk => (h.paid hpos).2 k (settled rfl rfl k |>.2 hk).2⟩

section

variable {x : Atom σ} (hc : Sane config c) (hx : (c.stage i).Allows config.maxActors x)
variable (hw : c'.world = x.effect c.world)
variable (hp : c'.past = c.past ++ [(i, ⟨c.world, x⟩)])
variable (hs : c'.stage = assign c.stage i ((c.stage i).visit ⟨c.world, x⟩))

/-- The thread that lets a stopped actor go still has it. -/
theorem stopped_of_poisons {w : World σ} {t : Turn σ} (ht : t.allows x)
    (hv : (⟨w, x⟩ : Visit σ).poisons a) : x = .finish a .poisoned ∧ t = .stopped a := by
  cases x with
  | finish b o =>
    simp only [Visit.poisons, Bool.and_eq_true, decide_eq_true_eq] at hv
    obtain ⟨rfl, rfl⟩ := hv
    rcases ht with ⟨-, -, -, ho⟩ | ⟨ht, -⟩
    · exact absurd rfl ho
    · exact ⟨rfl, ht⟩
  | _ => cases hv

include hx in
/-- Whoever lets a stopped actor go is the first to do so. -/
theorem first_of_poisons (h : Once a c) (hv : (⟨c.world, x⟩ : Visit σ).poisons a) :
    c.poisonings a = 0 := by
  refine Nat.eq_zero_of_not_pos fun hpos => (h.gone hpos).2 i ?_
  rw [(stopped_of_poisons hx.turn hv).2]
  rfl

include hp in
theorem poisonings_snoc : c'.poisonings a =
    c.poisonings a + if (⟨c.world, x⟩ : Visit σ).poisons a then 1 else 0 := by
  rw [Crew.poisonings, hp, List.countP_append, List.countP_singleton]
  rfl

include hc hx hw hp hs in
theorem gone_visited (h : Once a c) (hpos : 0 < c'.poisonings a) :
    c'.world.pool.phaseOf a = some .sick ∧ ∀ k, (c'.stage k).turn.actor? ≠ some a := by
  rw [poisonings_snoc hp] at hpos
  rw [hw, hs]
  split at hpos
  · rename_i hv
    obtain ⟨rfl, ht⟩ := stopped_of_poisons hx.turn hv
    have hsick := hc.taken.phase i a (by rw [ht]; rfl)
    rw [ht] at hsick
    refine ⟨hc.taken.sick_visited hx hsick, fun k hk => ?_⟩
    rcases Taken.before hk with hold | ⟨-, hclaim, -⟩
    · have hki := hc.taken.alone k i a hold (by rw [ht]; rfl)
      rw [hki, assign_self, Stage.visit, Stage.after, Turn.actor?_after] at hk
      cases hk
    · cases hclaim
  · obtain ⟨hsick, hnobody⟩ := h.gone hpos
    refine ⟨hc.taken.sick_visited hx hsick, fun k hk => ?_⟩
    rcases Taken.before hk with hold | ⟨-, -, hidle⟩
    · exact hnobody k hold
    · rw [Pool.isIdle_iff.mp hidle] at hsick
      cases hsick

include hc hx hs in
/-- A stopped actor does not stop again, so nobody gets into debt for it. -/
theorem debt_visited (hsick : c.world.pool.phaseOf a = some .sick) {k : ThreadId}
    (hk : a ∈ (c'.stage k).debt) : a ∈ (c.stage k).debt := by
  rw [hs] at hk
  rcases Taken.debt_before hk with hold | ⟨-, rfl⟩
  · exact hold
  · have hworking := (hc.taken.sickened hx).1
    rw [hsick] at hworking
    cases hworking

include hc hx hs in
theorem debtor_visited (h : Once a c) {k l : ThreadId} (hk : a ∈ (c'.stage k).debt)
    (hl : a ∈ (c'.stage l).debt) : k = l := by
  by_cases hsick : c.world.pool.phaseOf a = some .sick
  · exact h.debtor k l (debt_visited hc hx hs hsick hk) (debt_visited hc hx hs hsick hl)
  · rw [hs] at hk hl
    rcases Taken.debt_before hk with hold | ⟨rfl, -⟩
    · exact absurd (hc.taken.debtor k a hold) hsick
    rcases Taken.debt_before hl with hold | ⟨rfl, -⟩
    · exact absurd (hc.taken.debtor l a hold) hsick
    rfl

include hc hx hw hp hs in
theorem visited (h : Once a c) (he : c'.ended = c.ended) : Once a c' := by
  refine ⟨?_, h.gone_visited hc hx hw hp hs, ?_, fun hpos => ?_,
    fun k l => h.debtor_visited hc hx hs⟩
  · rw [poisonings_snoc hp]
    split
    · rename_i hv
      simp [h.first_of_poisons hx hv]
    · exact h.ends
  · rw [Crew.poisonedReturns, he]
    exact h.returns
  · rw [Crew.poisonedReturns, he] at hpos
    obtain ⟨hsick, hnobody⟩ := h.paid hpos
    rw [hw]
    refine ⟨hc.taken.sick_visited hx hsick, fun k hk => ?_⟩
    exact hnobody k (debt_visited hc hx hs hsick hk)

end

theorem step (hc : Sane config c) (hchange : Orderly.Change config c c') (h : Once a c) :
    Once a c' := by
  rcases hchange with ⟨i, r, -, hw, hp, he, hs⟩ | ⟨i, r, o, hdone, hw, hp, he, hs⟩ |
    ⟨i, x, hx, -, hw, hp, he, hs⟩
  · exact h.begun hw hp he hs
  · exact h.left hc hdone hw hp he hs
  · exact h.visited hc hx hw hp hs he

theorem empty (config : Config) (env : σ.Env) : Once a (Crew.empty config env : Crew σ) where
  ends := Nat.zero_le _
  gone hpos := by cases hpos
  returns := Nat.zero_le _
  paid hpos := by cases hpos
  debtor k l hk := by cases hk

end Once

/-! ## What a drain relies on -/

/-- What the threads of a crew cannot do to each other over actor `a`. -/
structure Exclusive (company : Company σ) (c : Crew σ) (a : ActorRef) : Prop where
  /-- One thread at most has taken the actor and not let it go. -/
  alone : ∀ i k j l, c.jobs i = some j → c.jobs k = some l → j.Has a → l.Has a → i = k
  has : ∀ i, (c.turn i).actor? = some a ↔ ∃ j, c.jobs i = some j ∧ j.Has a
  processing : ∀ i, (c.turn i).actor? = some a → c.turn i ≠ .stopped a →
    c.world.pool.phaseOf a = some .processing
  /-- The thread has stopped the actor and not let it go yet. -/
  stopped : ∀ i, c.turn i = .stopped a → c.world.pool.phaseOf a = some .sick
  /-- However the threads go on, a stopped actor stays stopped. -/
  terminal : c.world.pool.phaseOf a = some .sick → ∀ ns d, c.play company ns = some d →
    d.world.pool.phaseOf a = some .sick
  poisoned : c.poisonings a ≤ 1 ∧ c.poisonedReturns a ≤ 1
  sick : 0 < c.poisonings a ∨ 0 < c.poisonedReturns a → c.world.pool.phaseOf a = some .sick
  /-- Of the `size` messages that a drain counted it has taken `k`: the others are there. -/
  stocked : ∀ i size k, c.turn i = .batch a size k → size - k ≤ (c.world.pool.mailOf a).length
  /-- Nobody who is about to take a message has to wait for one. -/
  ready : ∀ i j next, c.jobs i = some j → j.rest = .ask (.takeMail a) next →
    (Atom.takeMail a).ready c.world

/-- Whatever any number of threads have done, in whichever order. -/
theorem drains_exclude (company : Company σ) (hc : company.Civil) (config : Config) (env : σ.Env)
    (ms : List (Move σ)) (c : Crew σ) (hplay : (Crew.empty config env).play company ms = some c)
    (a : ActorRef) : Exclusive company c a := by
  obtain ⟨h, honce⟩ := (Sane.empty config env).induction hc (P := Once a)
    (fun _ _ hc hchange h => h.step hc hchange) (.empty config env) hplay
  have hphase : ∀ i, (c.turn i).actor? = some a →
      c.world.pool.phaseOf a = some (c.turn i).phase := fun i hi => h.taken.phase i a hi
  have hhas : ∀ i, (c.turn i).actor? = some a ↔ ∃ j, c.jobs i = some j ∧ j.Has a := by
    intro i
    rw [Crew.turn]
    cases hj : c.jobs i with
    | none => simp [Crew.stage_of_idle hj, Turn.actor?]
    | some j => simp [Crew.stage_of_job hj, Job.has_iff]
  constructor
  · intro i k j l hj hl hi hk
    exact h.taken.alone i k a ((hhas i).mpr ⟨j, hj, hi⟩) ((hhas k).mpr ⟨l, hl, hk⟩)
  · exact hhas
  · intro i hi hne
    rw [hphase i hi]
    cases ht : c.turn i with
    | stopped b =>
      rw [ht] at hi hne
      cases hi
      exact absurd rfl hne
    | _ => rfl
  · intro i ht
    rw [hphase i (by rw [ht]; rfl), ht]
    rfl
  · exact fun hsick ns d hd => h.sick_play hc hsick hd
  · exact ⟨honce.ends, honce.returns⟩
  · rintro (hpos | hpos)
    · exact (honce.gone hpos).1
    · exact (honce.paid hpos).1
  · intro i size k ht
    have hstock := h.taken.stocked i a (by rw [← Crew.turn, ht]; rfl)
    rwa [← Crew.turn, ht] at hstock
  · intro i j next hj hrest
    have hobeys := h.orderly.obeys i j hj
    rw [hrest] at hobeys
    obtain ⟨size, k, ht, hk⟩ := hobeys.1.turn
    rw [← Crew.stage_of_job hj] at ht
    -- a drain takes only what it has counted
    have hstock := h.taken.stocked i a (by rw [ht]; rfl)
    rw [ht] at hstock
    have hpos : 0 < (c.world.pool.mailOf a).length :=
      Nat.lt_of_lt_of_le (Nat.sub_pos_of_lt hk) hstock
    simp only [Atom.ready, Bool.not_eq_true', List.isEmpty_eq_false_iff]
    exact List.ne_nil_of_length_pos hpos

/-- A mute is registered and gets a poison message; then one thread is about to drain it, and
another one has come too late. -/
def Mute.twoDrains : List (Move Mute.signature) :=
  [.begin 0 Mute.register] ++ List.replicate 12 (.go 0) ++
    [.begin 0 (Mute.post ⟨1⟩ .poison)] ++ List.replicate 3 (.go 0) ++
    [.begin 1 (.drain 0), .go 1, .go 1, .begin 2 (.drain 0), .go 2, .go 2]

theorem twoDrains_exclude : ∃ c, (Crew.empty {} ()).play Mute.company Mute.twoDrains = some c ∧
    (c.turn 1).left = 1 ∧ Exclusive Mute.company c 0 := by
  have hleft : ((Crew.empty {} ()).play Mute.company Mute.twoDrains).map (fun c => (c.turn 1).left) =
      some 1 := by decide +kernel
  obtain ⟨c, hplay, hc⟩ := Option.map_eq_some_iff.mp hleft
  exact ⟨c, hplay, hc, drains_exclude Mute.company nofun {} () Mute.twoDrains c hplay 0⟩

end ActorSystem
