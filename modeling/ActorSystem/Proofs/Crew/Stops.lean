import ActorSystem.Proofs.Crew.Causes
import ActorSystem.Proofs.Crew.Mail
import ActorSystem.Proofs.Crew.Table

/-!
# How actors stop in a crew

Every thread heeds the rule about stopping, and an actor is in the hands of one thread at most. So
the messages of an actor end with a poison message: once one is taken nothing else is, and before
it there is no other. An actor that has stopped has taken one, or its role gave up.

* `Ruled`: what every thread has done so far was according to the rule.
* `Fated`: what an actor has consumed, up to the message that stops it.
* `Sane.fated`: this holds at any time.
-/

namespace ActorSystem

variable {σ : Signature} {config : Config} {company : Company σ} {c c' d : Crew σ}

/-! ## What each thread has done -/

structure Ruled (company : Company σ) (c : Crew σ) : Prop where
  idle : ∀ k, c.jobs k = none → AtEase (c.trail k)
  busy : ∀ k j, c.jobs k = some j →
    Heeds (Heedful company) (c.trail k) j.rest fun _ h => AtEase h
  heeded : ∀ k before v after, c.trail k = before ++ v :: after → Heedful company before v

namespace Ruled

theorem iff_heeding : Ruled company c ↔ Heeding (Heedful company) AtEase c :=
  ⟨fun h => ⟨h.idle, h.busy, h.heeded⟩, fun h => ⟨h.idle, h.busy, h.heeded⟩⟩

theorem empty (config : Config) (env : σ.Env) : Ruled company (Crew.empty config env) :=
  iff_heeding.mpr (.empty atEase_nil config env)

theorem step (hc : company.Civil) (h : Ruled company c) {m : Move σ}
    (hm : c.step company m = some c') : Ruled company c' :=
  iff_heeding.mpr ((iff_heeding.mp h).step (Act.act_tame hc) hm)

end Ruled

/-! ## What an actor consumes -/

namespace Visit

/-- The message that this access hands to the role of `a`. -/
def dispatched (v : Visit σ) (a : ActorRef) : Option (Message σ.Value) :=
  match v.atom with
  | .dispatch c m => if c = a then some m else none
  | _ => none

end Visit

namespace Crew

/-- The messages that the role of `a` was handed, oldest first. -/
def dispatched (c : Crew σ) (a : ActorRef) : List (Message σ.Value) :=
  c.past.filterMap (·.2.dispatched a)

theorem dispatched_snoc {i : ThreadId} {v : Visit σ} (hp : c'.past = c.past ++ [(i, v)])
    (a : ActorRef) : c'.dispatched a = c.dispatched a ++ (v.dispatched a).toList := by
  simp only [dispatched, hp, List.filterMap_append]
  cases hm : v.dispatched a <;> simp [hm]

/-- The role of `a` came to `poisoned` over some message. -/
def GaveUp (company : Company σ) (c : Crew σ) (a : ActorRef) : Prop :=
  ∃ k before, before <+: c.trail k ∧ ActorSystem.GaveUp company a before

theorem GaveUp.mono {a : ActorRef} {vs : List (ThreadId × Visit σ)} (h : c.GaveUp company a)
    (hp : c'.past = c.past ++ vs) : c'.GaveUp company a := by
  obtain ⟨k, before, hbefore, hgave⟩ := h
  refine ⟨k, before, hbefore.trans ?_, hgave⟩
  rw [trail, trail, hp, List.filterMap_append]
  exact List.prefix_append _ _

end Crew

structure Fated (company : Company σ) (a : ActorRef) (c : Crew σ) : Prop where
  /-- What a thread holds for the role is for the role. -/
  held : ∀ k size n m, (c.stage k).turn = .holding a size n m → m.isControl = false
  served : c.dispatched a = (c.consumed a).filter (!·.isControl)
  /-- Nothing is consumed after a poison message. -/
  final : ∀ before m after, c.consumed a = before ++ m :: after → m.isPoison → after = []
  /-- Whoever has just taken a poison message has the actor. -/
  taker : ∀ k, TookPoison a (c.trail k) → (c.stage k).turn.actor? = some a ∧
    ∃ before m, c.consumed a = before ++ [m] ∧ m.isPoison
  doomed : ∀ m ∈ c.consumed a, m.isPoison →
    c.world.pool.phaseOf a = some .sick ∨ ∃ k, TookPoison a (c.trail k)
  reason : c.world.pool.phaseOf a = some .sick →
    (∃ before m, c.consumed a = before ++ [m] ∧ m.isPoison) ∨ c.GaveUp company a

/-- A message that is for the role stays in the hand of the thread. -/
theorem Turn.holding_of_after {t : Turn σ} {x : Atom σ} {y : x.Answer} {a : ActorRef}
    {size n : Nat} {m : Message σ.Value} (h : t.after x y = .holding a size n m) :
    t = .holding a size n m ∨ m.isControl = false := by
  unfold after at h
  split at h
  · rename_i taken
    cases taken with
    | true => cases h
    | false => exact .inl h
  · cases h
  · split at h
    · cases h
    · rename_i hm
      cases h
      exact .inr (by simpa using hm)
  · cases h
  · cases h
  · cases h
  · exact .inl h

namespace Fated

variable {a : ActorRef} {i : ThreadId}

theorem empty (config : Config) (env : σ.Env) :
    Fated company a (Crew.empty config env : Crew σ) where
  held k size n m hk := by cases hk
  served := rfl
  final before m after h := by simp [Crew.empty, Crew.consumed] at h
  taker k hk := absurd hk (atEase_nil a)
  doomed m hm := by cases hm
  reason h := by simp [Crew.empty, World.empty, Pool.phaseOf, Pool.actor?] at h

theorem settled (h : Fated company a c) {t : Stage σ} (hi : (c.stage i).turn = .away)
    (ht : t.turn = .away) (hw : c'.world = c.world) (hp : c'.past = c.past)
    (hs : c'.stage = assign c.stage i t) : Fated company a c' := by
  have hturn := Crew.turn_settled hi ht hs
  have htrail := Crew.trail_of_past hp
  have hconsumed : c'.consumed a = c.consumed a := by rw [Crew.consumed, hp, Crew.consumed]
  have hdispatched : c'.dispatched a = c.dispatched a := by
    rw [Crew.dispatched, hp, Crew.dispatched]
  constructor
  · intro k size n m hk
    rw [hturn] at hk
    exact h.held k size n m hk
  · rw [hdispatched, hconsumed]
    exact h.served
  · rw [hconsumed]
    exact h.final
  · intro k hk
    rw [htrail] at hk
    rw [hturn, hconsumed]
    exact h.taker k hk
  · rw [hconsumed, hw, htrail]
    exact h.doomed
  · intro hsick
    rw [hw] at hsick
    rw [hconsumed]
    rcases h.reason hsick with hpoison | hgave
    · exact .inl hpoison
    · exact .inr (hgave.mono (hp.trans (List.append_nil _).symm))

section

variable {x : Atom σ} (hc : Sane config c) (hx : (c.stage i).Allows config.maxActors x)
variable (hr : Heedful company (c.trail i) ⟨c.world, x⟩) (hw : c'.world = x.effect c.world)
variable (hp : c'.past = c.past ++ [(i, ⟨c.world, x⟩)])
variable (hs : c'.stage = assign c.stage i ((c.stage i).visit ⟨c.world, x⟩))

include hx in
/-- What is consumed is a control message or is dispatched. -/
theorem served_visited (h : Fated company a c) :
    ((⟨c.world, x⟩ : Visit σ).dispatched a).toList =
      ((⟨c.world, x⟩ : Visit σ).consumed a).toList.filter (!·.isControl) := by
  cases x with
  | takeMail b =>
    by_cases hb : b = a
    · cases hm : (c.world.pool.mailOf a).head? with
      | none => simp [Visit.dispatched, Visit.consumed, hb, hm]
      | some m => cases hm' : m.isControl <;> simp [Visit.dispatched, Visit.consumed, hb, hm]
    · simp [Visit.dispatched, Visit.consumed, hb]
  | dispatch b m =>
    by_cases hb : b = a
    · subst hb
      obtain ⟨size, k, hturn⟩ := hx.turn
      simp [Visit.dispatched, Visit.consumed, h.held i size k m hturn]
    · simp [Visit.dispatched, Visit.consumed, hb]
  | _ => rfl

include hc hx hr in
/-- Nothing more is consumed once a poison message is. -/
theorem consumed_of_poison (h : Fated company a c) {m : Message σ.Value} (hm : m ∈ c.consumed a)
    (hpoison : m.isPoison) : (⟨c.world, x⟩ : Visit σ).consumed a = none := by
  rcases h.doomed m hm hpoison with hsick | ⟨k, hk⟩
  · exact (untouched_of_sick hc.taken hx hsick).2
  · by_cases hki : k = i
    · subst hki
      obtain rfl : x = .sicken a := hr.stops a hk
      rfl
    · have hother : (c.stage i).turn.actor? ≠ some a :=
        fun hi => hki (hc.taken.alone k i a (h.taker k hk).1 hi)
      exact (untouched (w := c.world) hx hother).2

include hc hx hr hp in
theorem final_visited (h : Fated company a c) {before after : List (Message σ.Value)}
    {m : Message σ.Value} (hm : c'.consumed a = before ++ m :: after) (hpoison : m.isPoison) :
    after = [] := by
  rw [Crew.consumed_snoc hp] at hm
  cases hnew : (⟨c.world, x⟩ : Visit σ).consumed a with
  | none =>
    rw [hnew, Option.toList_none, List.append_nil] at hm
    exact h.final before m after hm hpoison
  | some n =>
    rw [hnew, Option.toList_some] at hm
    rcases snoc_split hm with ⟨-, -, hend⟩ | ⟨rest, hsplit⟩
    · exact hend
    · have hold : m ∈ c.consumed a := by simp [hsplit]
      have hnone := h.consumed_of_poison hc hx hr hold hpoison
      rw [hnew] at hnone
      cases hnone

include hc hx hp hs in
theorem taker_visited (h : Fated company a c) {k : ThreadId} (hk : TookPoison a (c'.trail k)) :
    (c'.stage k).turn.actor? = some a ∧
      ∃ before m, c'.consumed a = before ++ [m] ∧ m.isPoison := by
  rw [Crew.trail_snoc hp] at hk
  rw [Crew.consumed_snoc hp, hs]
  split at hk
  · rename_i hki
    subst hki
    obtain ⟨htake, m, hm, hpoison⟩ := tookPoison_snoc.mp hk
    obtain rfl : x = .takeMail a := htake
    have hactor : (c.stage k).turn.actor? = some a := Turn.actor?_of_allows hx.turn
    refine ⟨?_, c.consumed a, m, ?_, hpoison⟩
    · rw [assign_self, Stage.visit, Stage.after, Turn.actor?_after]
      exact hactor
    · have hcontrol : m.isControl := Message.isControl_of_isPoison hpoison
      simp only [Visit.consumed, if_pos, hm, Option.filter_some, hcontrol, Option.toList_some]
  · rename_i hki
    obtain ⟨hactor, hpoison⟩ := h.taker k hk
    have hother : (c.stage i).turn.actor? ≠ some a :=
      fun hi => hki (hc.taken.alone k i a hactor hi)
    rw [(untouched (w := c.world) hx hother).2, Option.toList_none, List.append_nil,
      assign_of_ne _ _ hki]
    exact ⟨hactor, hpoison⟩

include hc hx hr hw hp in
theorem doomed_visited (h : Fated company a c) {m : Message σ.Value} (hm : m ∈ c'.consumed a)
    (hpoison : m.isPoison) :
    c'.world.pool.phaseOf a = some .sick ∨ ∃ k, TookPoison a (c'.trail k) := by
  rw [Crew.consumed_snoc hp] at hm
  rw [hw]
  rcases List.mem_append.mp hm with hold | hnew
  · rcases h.doomed m hold hpoison with hsick | ⟨k, hk⟩
    · exact .inl (hc.taken.sick_visited hx hsick)
    · by_cases hki : k = i
      · subst hki
        obtain rfl : x = .sicken a := hr.stops a hk
        exact .inl (hc.taken.sickened hx).2
      · exact .inr ⟨k, by rwa [Crew.trail_snoc hp, if_neg hki]⟩
  · rw [Option.mem_toList] at hnew
    cases x with
    | takeMail b =>
      simp only [Visit.consumed] at hnew
      split at hnew
      · rename_i hb
        subst hb
        have htook : TookPoison b (c.trail i ++ [⟨c.world, .takeMail b⟩]) :=
          tookPoison_snoc.mpr ⟨rfl, m, (Option.filter_eq_some_iff.mp hnew).1, hpoison⟩
        exact .inr ⟨i, by rwa [Crew.trail_snoc hp, if_pos rfl]⟩
      · cases hnew
    | dispatch b n =>
      simp only [Visit.consumed] at hnew
      split at hnew
      · rename_i hb
        cases hnew
        subst hb
        obtain ⟨size, k, hturn⟩ := hx.turn
        have hcontrol := Message.isControl_of_isPoison hpoison
        rw [h.held i size k m hturn] at hcontrol
        cases hcontrol
      · cases hnew
    | _ => cases hnew

include hc hx hr hw hp in
theorem reason_visited (h : Fated company a c) (hsick : c'.world.pool.phaseOf a = some .sick) :
    (∃ before m, c'.consumed a = before ++ [m] ∧ m.isPoison) ∨ c'.GaveUp company a := by
  rw [hw] at hsick
  rw [Crew.consumed_snoc hp]
  rcases sick_before hx hsick with hold | rfl
  · rw [(untouched_of_sick hc.taken hx hold).2, Option.toList_none, List.append_nil]
    rcases h.reason hold with hpoison | hgave
    · exact .inl hpoison
    · exact .inr (hgave.mono hp)
  · have hnone : (⟨c.world, .sicken a⟩ : Visit σ).consumed a = none := rfl
    rw [hnone, Option.toList_none, List.append_nil]
    rcases hr.cause a rfl with htook | hgave
    · exact .inl (h.taker i htook).2
    · exact .inr (Crew.GaveUp.mono ⟨i, c.trail i, List.prefix_refl _, hgave⟩ hp)

include hc hx hr hw hp hs in
theorem visited (h : Fated company a c) : Fated company a c' where
  held k size n m hk := by
    rw [hs] at hk
    by_cases hki : k = i
    · rw [hki, assign_self] at hk
      rcases Turn.holding_of_after hk with hold | hm
      · exact h.held i size n m hold
      · exact hm
    · rw [assign_of_ne _ _ hki] at hk
      exact h.held k size n m hk
  served := by
    rw [Crew.dispatched_snoc hp, Crew.consumed_snoc hp, List.filter_append, h.served,
      h.served_visited hx]
  final before m after hm hpoison := h.final_visited hc hx hr hp hm hpoison
  taker k hk := h.taker_visited hc hx hp hs hk
  doomed m hm hpoison := h.doomed_visited hc hx hr hw hp hm hpoison
  reason hsick := h.reason_visited hc hx hr hw hp hsick

end

theorem step (hc : Sane config c) (hr : Ruled company c') (hchange : Orderly.Change config c c')
    (h : Fated company a c) : Fated company a c' := by
  rcases hchange.between_or_visited with ⟨i, t, hi, ht, -, hw, hp, hs⟩ |
    ⟨i, x, hx, -, hw, hp, hs⟩
  · exact h.settled hi.turn ht.turn hw hp hs
  · have hheedful := (Ruled.iff_heeding.mp hr).last hp
    exact h.visited hc hx hheedful hw hp hs

end Fated

theorem Sane.fated (hc : company.Civil) {env : σ.Env} {ms : List (Move σ)}
    (hplay : (Crew.empty config env).play company ms = some c) (a : ActorRef) :
    Fated company a c := by
  have hall : Sane config c ∧ Ruled company c ∧ Fated company a c := by
    refine Moves.play_induction (P := fun c => Sane config c ∧ Ruled company c ∧ Fated company a c)
      ?_ ⟨.empty config env, .empty config env, .empty config env⟩ hplay
    rintro c c' m ⟨hsane, hruled, hfated⟩ hm
    have hruled' := hruled.step hc hm
    exact ⟨hsane.step hc hm, hruled', hfated.step hsane hruled' (hsane.orderly.change hm)⟩
  exact hall.2.2

end ActorSystem
