import ActorSystem.Proofs.Crew.Exclusion

/-!
# No letter is lost

What a crew's threads have put into the mailbox of an actor is what its drains have taken out and
what still is in there, in this order: the post office may move the mailbox or forget about it,
batches may be cut anywhere, and any thread may run any of them.

* `Conserved`: the invariant behind this.
* `mail_is_conserved`: the books of a mailbox.
-/

namespace ActorSystem

variable {σ : Signature} {config : Config} {company : Company σ} {c c' d : Crew σ}

/-! ## The books -/

namespace Visit

/-- The letter that this access puts into mailbox `b`. -/
def letter (v : Visit σ) (b : BoxRef) : Option (Message σ.Value) :=
  match v.atom with
  | .put c m => if c = b ∧ (v.world.pool.office.box? b).isSome then some m else none
  | _ => none

/-- The message that this access takes out of the mailbox of `a`. -/
def taken (v : Visit σ) (a : ActorRef) : Option (Message σ.Value) :=
  match v.atom with
  | .takeMail c => if c = a then (v.world.pool.mailOf a).head? else none
  | _ => none

/-- The message that is consumed by this access for `a`: a control message is obeyed by the
thread that takes it, any other is dispatched to the role. -/
def consumed (v : Visit σ) (a : ActorRef) : Option (Message σ.Value) :=
  match v.atom with
  | .takeMail c => if c = a then (v.world.pool.mailOf a).head?.filter (·.isControl) else none
  | .dispatch c m => if c = a then some m else none
  | _ => none

end Visit

namespace Crew

/-- All letters for mailbox `b` so far, each with the thread that sent it. -/
def letters (c : Crew σ) (b : BoxRef) : List (ThreadId × Message σ.Value) :=
  c.past.filterMap fun v => (v.2.letter b).map fun m => (v.1, m)

def taken (c : Crew σ) (a : ActorRef) : List (Message σ.Value) := c.past.filterMap (·.2.taken a)

def consumed (c : Crew σ) (a : ActorRef) : List (Message σ.Value) :=
  c.past.filterMap (·.2.consumed a)

section

variable {i : ThreadId} {v : Visit σ} (hp : c'.past = c.past ++ [(i, v)])

include hp

theorem taken_snoc (a : ActorRef) : c'.taken a = c.taken a ++ (v.taken a).toList := by
  simp only [taken, hp, List.filterMap_append]
  cases hm : v.taken a <;> simp [hm]

theorem consumed_snoc (a : ActorRef) : c'.consumed a = c.consumed a ++ (v.consumed a).toList := by
  simp only [consumed, hp, List.filterMap_append]
  cases hm : v.consumed a <;> simp [hm]

theorem letters_snoc (b : BoxRef) :
    (c'.letters b).map (·.2) = (c.letters b).map (·.2) ++ (v.letter b).toList := by
  simp only [letters, hp, List.filterMap_append]
  cases hm : v.letter b <;> simp [hm]

end

end Crew

/-- What a thread has taken out of a mailbox and not yet handed to the role. -/
def Turn.hand : Turn σ → List (Message σ.Value)
  | holding _ _ _ m => [m]
  | _ => []

/-- Who lets an actor go has none. -/
theorem Turn.after_eq_away {t : Turn σ} {x : Atom σ} {y : x.Answer} {a : ActorRef}
    (hx : t.allows x) (ha : t.actor? = some a) (hgone : (t.after x y).actor? ≠ some a) :
    t.after x y = away := by
  have hafter := t.actor?_after x y
  cases x with
  | claim c =>
    obtain rfl : t = away := hx
    cases ha
  | finish c o => cases t <;> rfl
  | _ => exact absurd (hafter.trans ha) hgone

/-- A thread that begins or leaves a job has no actor, before and after. -/
theorem Crew.turn_settled {i : ThreadId} {t : Stage σ} (hi : (c.stage i).turn = .away)
    (ht : t.turn = .away) (hs : c'.stage = assign c.stage i t) (k : ThreadId) :
    (c'.stage k).turn = (c.stage k).turn := by
  rw [hs]
  by_cases hki : k = i
  · rw [hki, assign_self, ht, hi]
  · rw [assign_of_ne _ _ hki]

/-! ## One access -/

section

variable {w : World σ} {s : ThreadId → Stage σ} {i : ThreadId} {limit : Nat} {x : Atom σ}
variable {a : ActorRef} {b : BoxRef}

/-- What is taken comes from the front, and what is sent goes to the back. -/
theorem mailOf_balance (hh : Housed w s) (hx : (s i).Allows limit x)
    (hb : w.pool.boxOf a = some b) :
    ((⟨w, x⟩ : Visit σ).taken a).toList ++ (x.effect w).pool.mailOf a =
      w.pool.mailOf a ++ ((⟨w, x⟩ : Visit σ).letter b).toList := by
  rw [mailOf_effect hh hx hb]
  cases x with
  | put c m =>
    have hbox := hh.box a b hb
    by_cases hc : c = b
    · simp [Visit.taken, Visit.letter, hc, hbox]
    · simp [Visit.taken, Visit.letter, hc]
  | takeMail c =>
    by_cases hc : c = a
    · cases hm : w.pool.mailOf a <;> simp [Visit.taken, Visit.letter, hc, hm]
    · simp [Visit.taken, Visit.letter, hc]
  | _ => simp [Visit.taken, Visit.letter]

/-- Nothing is taken out of a mailbox that is no actor's. -/
theorem mail_effect_of_spare (hx : (s i).Allows limit x) (hb : ∀ a, w.pool.boxOf a ≠ some b) :
    (x.effect w).pool.office.mail b =
      w.pool.office.mail b ++ ((⟨w, x⟩ : Visit σ).letter b).toList := by
  rw [Atom.mail_effect]
  cases x with
  | alter f => exact absurd rfl (Orderly.ne_alter hx f)
  | put c m =>
    simp only [Visit.letter]
    split <;> simp
  | takeMail c => simp [Visit.letter, hb c]
  | _ => simp [Visit.letter]

theorem taken_of_unborn (hb : w.pool.boxOf a = none) : (⟨w, x⟩ : Visit σ).taken a = none := by
  have hmail := Pool.mailOf_eq_nil_of_boxOf hb
  cases x with
  | takeMail c => simp [Visit.taken, hmail]
  | _ => rfl

/-- Only the thread that has an actor takes its mail or has its role handle some. -/
theorem untouched (hx : (s i).Allows limit x) (ha : (s i).turn.actor? ≠ some a) :
    (⟨w, x⟩ : Visit σ).taken a = none ∧ (⟨w, x⟩ : Visit σ).consumed a = none := by
  have hactor := Turn.actor?_of_allows hx.turn
  cases x with
  | takeMail c =>
    have hc : c ≠ a := fun hc => ha (hc ▸ hactor)
    simp [Visit.taken, Visit.consumed, hc]
  | dispatch c m =>
    have hc : c ≠ a := fun hc => ha (hc ▸ hactor)
    simp [Visit.taken, Visit.consumed, hc]
  | _ => exact ⟨rfl, rfl⟩

/-- Nobody takes mail for a stopped actor, or has its role handle any. -/
theorem untouched_of_sick (ht : Taken w s) (hx : (s i).Allows limit x)
    (ha : w.pool.phaseOf a = some .sick) :
    (⟨w, x⟩ : Visit σ).taken a = none ∧ (⟨w, x⟩ : Visit σ).consumed a = none := by
  by_cases hi : (s i).turn.actor? = some a
  · have hphase := ht.phase i a hi
    have hturn := hx.turn
    rw [ha, Option.some.injEq] at hphase
    cases x with
    | takeMail c =>
      obtain ⟨size, k, hbatch, -⟩ := hturn
      rw [hbatch] at hphase
      cases hphase
    | dispatch c m =>
      obtain ⟨size, k, hholding⟩ := hturn
      rw [hholding] at hphase
      cases hphase
    | _ => exact ⟨rfl, rfl⟩
  · exact untouched hx hi

/-- What the thread that has an actor takes is consumed at once, or stays in its hand until it
is dispatched. -/
theorem hand_balance (hx : (s i).Allows limit x) (ha : (s i).turn.actor? = some a) :
    (s i).turn.hand ++ ((⟨w, x⟩ : Visit σ).taken a).toList =
      ((⟨w, x⟩ : Visit σ).consumed a).toList ++ ((s i).visit ⟨w, x⟩).turn.hand := by
  have hturn := hx.turn
  rw [Stage.visit, Stage.after]
  dsimp only
  generalize (s i).turn = t at ha hturn
  cases x with
  | claim c =>
    obtain rfl : t = .away := hturn
    cases ha
  | countMail c =>
    obtain rfl : t = .begun c := hturn
    rfl
  | takeMail c =>
    obtain ⟨size, k, rfl, -⟩ := hturn
    cases ha
    cases hm : (w.pool.mailOf a).head? with
    | none => simp [Visit.taken, Visit.consumed, Turn.after, Turn.hand, Atom.answer, hm]
    | some m =>
      cases hc : m.isControl <;>
        simp [Visit.taken, Visit.consumed, Turn.after, Turn.hand, Atom.answer, hm, hc, Option.filter]
  | dispatch c m =>
    obtain ⟨size, k, rfl⟩ := hturn
    cases ha
    simp [Visit.taken, Visit.consumed, Turn.after, Turn.hand]
  | sicken c =>
    obtain ⟨size, k, rfl⟩ := hturn
    rfl
  | finish c o =>
    rcases hturn with ⟨size, k, rfl, -⟩ | ⟨rfl, -⟩
    · rfl
    · rfl
  | _ => cases t <;> rfl

end

/-! ## The books are kept -/

structure Conserved (c : Crew σ) : Prop where
  mail : ∀ a b, c.world.pool.boxOf a = some b →
    c.taken a ++ c.world.pool.mailOf a = (c.letters b).map (·.2)
  /-- A mailbox without an actor has kept everything. -/
  spare : ∀ b, (∀ a, c.world.pool.boxOf a ≠ some b) →
    c.world.pool.office.mail b = (c.letters b).map (·.2)
  unborn : ∀ a, c.world.pool.boxOf a = none → c.taken a = []
  held : ∀ k a, (c.stage k).turn.actor? = some a →
    c.taken a = c.consumed a ++ (c.stage k).turn.hand
  free : ∀ a, (∀ k, (c.stage k).turn.actor? ≠ some a) → c.taken a = c.consumed a

namespace Conserved

variable {i : ThreadId}

theorem empty (config : Config) (env : σ.Env) : Conserved (Crew.empty config env : Crew σ) where
  mail a b hb := by simp [Crew.empty, World.empty, Pool.boxOf, Pool.actor?] at hb
  spare b hb := rfl
  unborn a ha := rfl
  held k a hk := by cases hk
  free a ha := rfl

/-- A thread that has no actor begins or leaves a job. -/
theorem settled (h : Conserved c) {t : Stage σ} (hi : (c.stage i).turn = .away)
    (ht : t.turn = .away) (hw : c'.world = c.world) (hp : c'.past = c.past)
    (hs : c'.stage = assign c.stage i t) : Conserved c' := by
  have htaken : c'.taken = c.taken := by
    funext a
    simp only [Crew.taken, hp]
  have hconsumed : c'.consumed = c.consumed := by
    funext a
    simp only [Crew.consumed, hp]
  have hletters : c'.letters = c.letters := by
    funext b
    simp only [Crew.letters, hp]
  have hturn := Crew.turn_settled hi ht hs
  constructor
  · rw [hw, htaken, hletters]
    exact h.mail
  · rw [hw, hletters]
    exact h.spare
  · rw [hw, htaken]
    exact h.unborn
  · intro k a hk
    rw [hturn] at hk ⊢
    rw [htaken, hconsumed]
    exact h.held k a hk
  · intro a ha
    rw [htaken, hconsumed]
    exact h.free a fun k hk => ha k (by rwa [hturn])

section

variable {x : Atom σ} (hx : (c.stage i).Allows config.maxActors x) (hw : c'.world = x.effect c.world)
variable (hp : c'.past = c.past ++ [(i, ⟨c.world, x⟩)])
variable (hs : c'.stage = assign c.stage i ((c.stage i).visit ⟨c.world, x⟩))

include hx hw hp in
theorem mail_visited (h : Conserved c) (hc : Sane config c) {a : ActorRef} {b : BoxRef}
    (hb : c'.world.pool.boxOf a = some b) :
    c'.taken a ++ c'.world.pool.mailOf a = (c'.letters b).map (·.2) := by
  rw [hw] at hb ⊢
  rw [Crew.taken_snoc hp, Crew.letters_snoc hp]
  rcases Housed.boxOf_of_effect hx hb with hold | ⟨rfl, n, hn, y, rfl⟩
  · rw [List.append_assoc, mailOf_balance hc.housed hx hold, ← List.append_assoc, h.mail a b hold]
  · -- the new actor's mailbox has been nobody's so far
    have hnone : c.world.pool.boxOf c.world.pool.actors.size = none := by
      simp [Pool.boxOf, Pool.actor?]
    have hspare := (hc.housed.fresh i n b hn).2
    rw [h.unborn _ hnone, taken_of_unborn hnone, Pool.mailOf_eq_of_boxOf hb,
      mail_effect_of_spare hx hspare, h.spare b hspare]
    rfl

include hx hp hs in
theorem held_visited (h : Conserved c) (hc : Sane config c) {k : ThreadId} {a : ActorRef}
    (hk : (c'.stage k).turn.actor? = some a) :
    c'.taken a = c'.consumed a ++ (c'.stage k).turn.hand := by
  rw [hs] at hk ⊢
  rw [Crew.taken_snoc hp, Crew.consumed_snoc hp]
  rcases Taken.before hk with hold | ⟨rfl, rfl, hidle⟩
  · by_cases hki : k = i
    · subst hki
      rw [assign_self, h.held k a hold, List.append_assoc, hand_balance hx hold,
        ← List.append_assoc]
    · have hother : (c.stage i).turn.actor? ≠ some a :=
        fun hi => hki (hc.taken.alone k i a hold hi)
      obtain ⟨htake, hconsume⟩ := untouched (w := c.world) hx hother
      rw [htake, hconsume, assign_of_ne _ _ hki, h.held k a hold]
      simp
  · have haway : (c.stage k).turn = .away := hx.turn
    have hfree := h.free a (hc.taken.free_of_idle hidle)
    rw [assign_self, hfree]
    simp [Stage.visit, Stage.after, Atom.answer, hidle, haway, Turn.after, Turn.hand, Visit.taken,
      Visit.consumed]

include hx hp hs in
theorem free_visited (h : Conserved c) {a : ActorRef}
    (ha : ∀ k, (c'.stage k).turn.actor? ≠ some a) : c'.taken a = c'.consumed a := by
  rw [hs] at ha
  rw [Crew.taken_snoc hp, Crew.consumed_snoc hp]
  by_cases hi : (c.stage i).turn.actor? = some a
  · -- the thread has let the actor go, with empty hands
    have hgone := ha i
    rw [assign_self] at hgone
    have hbalance := hand_balance (w := c.world) hx hi
    have haway : ((c.stage i).visit ⟨c.world, x⟩).turn = .away :=
      Turn.after_eq_away hx.turn hi hgone
    rw [haway] at hbalance
    rw [h.held i a hi, List.append_assoc, hbalance]
    simp [Turn.hand]
  · obtain ⟨htake, hconsume⟩ := untouched (w := c.world) hx hi
    rw [htake, hconsume]
    simp only [Option.toList_none, List.append_nil]
    refine h.free a fun k hk => ?_
    by_cases hki : k = i
    · exact hi (hki ▸ hk)
    · exact ha k (by rwa [assign_of_ne _ _ hki])

include hx hw hp hs in
theorem visited (h : Conserved c) (hc : Sane config c) : Conserved c' := by
  refine ⟨fun a b => h.mail_visited hx hw hp hc, fun b hb => ?_, fun a ha => ?_,
    fun k a => h.held_visited hx hp hs hc, fun a => h.free_visited hx hp hs⟩
  · rw [hw] at hb ⊢
    have hold : ∀ a, c.world.pool.boxOf a ≠ some b :=
      fun a ha => hb a (boxOf_effect_of_some hx ha)
    rw [Crew.letters_snoc hp, mail_effect_of_spare hx hold, h.spare b hold]
  · rw [hw] at ha
    have hold : c.world.pool.boxOf a = none := by
      cases hb : c.world.pool.boxOf a with
      | none => rfl
      | some b => exact (boxOf_effect_of_some hx hb).symm.trans ha
    rw [Crew.taken_snoc hp, h.unborn a hold, taken_of_unborn hold]
    rfl

end

theorem step (hc : Sane config c) (hchange : Orderly.Change config c c') (h : Conserved c) :
    Conserved c' := by
  rcases hchange.between_or_visited with ⟨i, t, hi, ht, -, hw, hp, hs⟩ |
    ⟨i, x, hx, -, hw, hp, hs⟩
  · exact h.settled hi.turn ht.turn hw hp hs
  · exact h.visited hx hw hp hs hc

end Conserved

/-- Nothing is consumed for a stopped actor any more. -/
theorem Sane.consumed_play (hc : company.Civil) (h : Sane config c) {a : ActorRef}
    (ha : c.world.pool.phaseOf a = some .sick) {ns : List (Move σ)}
    (hplay : c.play company ns = some d) : d.taken a = c.taken a ∧ d.consumed a = c.consumed a := by
  refine (h.induction hc (P := fun e => e.world.pool.phaseOf a = some .sick ∧
    e.taken a = c.taken a ∧ e.consumed a = c.consumed a) ?_ ⟨ha, rfl, rfl⟩ hplay).2.2
  rintro e e' he hchange ⟨hsick, htaken, hconsumed⟩
  rcases hchange.between_or_visited with ⟨i, t, -, -, -, hw, hp, -⟩ | ⟨i, x, hx, -, hw, hp, -⟩
  · refine ⟨by rwa [hw], ?_, ?_⟩
    · rwa [Crew.taken, hp]
    · rwa [Crew.consumed, hp]
  · obtain ⟨htake, hconsume⟩ := untouched_of_sick he.taken hx hsick
    refine ⟨?_, ?_, ?_⟩
    · rw [hw]
      exact he.taken.sick_visited hx hsick
    · rw [← htaken, Crew.taken, Crew.taken, hp]
      simp [htake]
    · rw [← hconsumed, Crew.consumed, Crew.consumed, hp]
      simp [hconsume]

/-! ## What comes of a letter -/

/-- The letters in mailbox `b` that have been consumed for `a`, with their senders. -/
def Crew.received (c : Crew σ) (a : ActorRef) (b : BoxRef) : List (ThreadId × Message σ.Value) :=
  (c.letters b).take (c.consumed a).length

/-- The books of actor `a` with mailbox `b`. -/
structure Delivered (company : Company σ) (c : Crew σ) (a : ActorRef) (b : BoxRef) : Prop where
  /-- What drains have taken out and what is still in there is what was put in. -/
  taken : c.taken a ++ c.world.pool.mailOf a = (c.letters b).map (·.2)
  consumed : (∀ k size n m, c.turn k ≠ .holding a size n m) →
    c.consumed a ++ c.world.pool.mailOf a = (c.letters b).map (·.2)
  /-- Between taking a message and handing it to the role, a thread has it. -/
  holding : ∀ k size n m, c.turn k = .holding a size n m →
    c.consumed a ++ m :: c.world.pool.mailOf a = (c.letters b).map (·.2)
  /-- The messages that are consumed are those of the first letters. -/
  received : (c.received a b).map (·.2) = c.consumed a
  /-- And those of each sender in the order of sending, be it a thread or an address. -/
  senders : ∀ sent : ThreadId × Message σ.Value → Bool,
    (c.received a b).filter sent <+: (c.letters b).filter sent
  /-- However the threads go on, a stopped actor consumes no more. -/
  final : c.world.pool.phaseOf a = some .sick → ∀ ns d, c.play company ns = some d →
    d.taken a = c.taken a ∧ d.consumed a = c.consumed a

/-- Whatever any number of threads have sent and drained, in whichever order. -/
theorem mail_is_conserved (company : Company σ) (hc : company.Civil) (config : Config)
    (env : σ.Env) (ms : List (Move σ)) (c : Crew σ)
    (hplay : (Crew.empty config env).play company ms = some c) (a : ActorRef) (b : BoxRef)
    (hb : c.world.pool.boxOf a = some b) : Delivered company c a b := by
  obtain ⟨h, hbooks⟩ := (Sane.empty config env).induction hc (P := Conserved)
    (fun _ _ hc hchange h => h.step hc hchange) (.empty config env) hplay
  have htaken := hbooks.mail a b hb
  have hholding : ∀ k size n m, c.turn k = .holding a size n m →
      c.taken a = c.consumed a ++ [m] := by
    intro k size n m hk
    have hheld := hbooks.held k a (by rw [← Crew.turn, hk]; rfl)
    rwa [← Crew.turn, hk] at hheld
  have hsettled : (∀ k size n m, c.turn k ≠ .holding a size n m) → c.taken a = c.consumed a := by
    intro hnone
    by_cases hfree : ∀ k, (c.stage k).turn.actor? ≠ some a
    · exact hbooks.free a hfree
    obtain ⟨k, hk⟩ := Classical.not_forall.mp hfree
    have hk := Decidable.not_not.mp hk
    have hheld := hbooks.held k a hk
    rw [← Crew.turn] at hheld hk
    cases ht : c.turn k with
    | holding d size n m =>
      rw [ht] at hk
      cases hk
      exact absurd ht (hnone k size n m)
    | _ => simpa [ht, Turn.hand] using hheld
  have hfront : c.consumed a <+: (c.letters b).map (·.2) := by
    rw [← htaken]
    by_cases hnone : ∀ k size n m, c.turn k ≠ .holding a size n m
    · rw [hsettled hnone]
      exact List.prefix_append _ _
    · simp only [Classical.not_forall, ne_eq, Classical.not_not] at hnone
      obtain ⟨k, size, n, m, hk⟩ := hnone
      rw [hholding k size n m hk, List.append_assoc]
      exact List.prefix_append _ _
  refine ⟨htaken, fun hnone => ?_, fun k size n m hk => ?_, ?_, fun sent => ?_, ?_⟩
  · rw [← hsettled hnone]
    exact htaken
  · rw [← htaken, hholding k size n m hk, List.append_assoc]
    rfl
  · rw [Crew.received, List.map_take]
    exact (List.prefix_iff_eq_take.mp hfront).symm
  · exact (List.take_prefix _ _).filter _
  · exact fun hsick ns d hd => h.consumed_play hc hsick hd

/-- A mute gets two letters; a third thread has taken the first one out. -/
def Mute.twoLetters : List (Move Mute.signature) :=
  [.begin 0 Mute.register] ++ List.replicate 12 (.go 0) ++
    [.begin 1 (.slip 0 (.ofValue ()))] ++ List.replicate 3 (.go 1) ++
    [.begin 2 (Mute.post ⟨1⟩ (.setName "deaf"))] ++ List.replicate 3 (.go 2) ++
    [.begin 3 (.drain 0), .go 3, .go 3, .go 3]

theorem twoLetters_conserved : ∃ c, (Crew.empty {} ()).play Mute.company Mute.twoLetters = some c ∧
    (c.letters 0).map (·.1) = [1, 2] ∧ (c.taken 0).length = 1 ∧ Delivered Mute.company c 0 0 := by
  have hrun : ((Crew.empty {} ()).play Mute.company Mute.twoLetters).map (fun c =>
      ((c.letters 0).map (·.1), (c.taken 0).length, c.world.pool.boxOf 0)) =
        some ([1, 2], 1, some 0) := by decide +kernel
  obtain ⟨c, hplay, hc⟩ := Option.map_eq_some_iff.mp hrun
  simp only [Prod.mk.injEq] at hc
  obtain ⟨hsent, htaken, hbox⟩ := hc
  exact ⟨c, hplay, hsent, htaken,
    mail_is_conserved Mute.company nofun {} () Mute.twoLetters c hplay 0 0 hbox⟩

end ActorSystem
