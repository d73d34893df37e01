import ActorSystem.Proofs.Crew.Lineages
import ActorSystem.Proofs.Roles.Players

/-!
# Rallies

Two players send a ball back and forth in a crew, as their drains and sweeps may come. At any time
the letter of the rally is at one place: it has arrived, or a thread has it and has not sent the next
one yet.

* `Rally.State`: the invariant.
* `Rally.State.quiet`, `Rally.State.acts`: every step keeps it.
-/

namespace ActorSystem

open Ensemble

variable {company : Company signature} {config : Config} {c₀ c c' d : Crew signature}
variable {g : Rally} {k n : ℕ}

namespace Rally

/-! ## The setting -/

/-- The players and the referee can be reached at their addresses. -/
structure Placed (g : Rally) (w : World signature) : Prop where
  side : ∀ k, w.pool.office.find? (g.side k).address = some (g.side k).box
  address : ∀ k, w.pool.office.addressOf (g.side k).box = (g.side k).address
  desk : w.pool.office.find? g.referee = some g.desk

/-- The players are there with their mailboxes. -/
structure Manned (g : Rally) (w : World signature) : Prop where
  self : ∀ k, ∃ name id, w.pool.selfOf (g.side k).actor = some (g.part (g.side k), name, id)
  box : ∀ k, w.pool.boxOf (g.side k).actor = some (g.side k).box

/-- Nobody has two parts in the rally. -/
structure Fair (g : Rally) : Prop where
  actors : g.first.actor ≠ g.second.actor
  boxes : g.first.box ≠ g.second.box
  desk : ∀ k, (g.side k).box ≠ g.desk
  hits : g.hits.toNat + 1 < UInt32.size

theorem side_eq_or (g : Rally) (k : ℕ) : g.side k = g.first ∨ g.side k = g.second := by
  rw [side]
  split
  · exact .inl rfl
  · exact .inr rfl

/-- What tells the two players apart tells who has the ball. -/
theorem side_eq_of {β : Type} {f : Side → β} (hf : f g.first ≠ f g.second) {j k : ℕ}
    (hjk : f (g.side j) = f (g.side k)) : g.side j = g.side k := by
  rcases g.side_eq_or j with hj | hj <;> rcases g.side_eq_or k with hk | hk <;>
    rw [hj, hk] at hjk ⊢
  · exact absurd hjk hf
  · exact absurd hjk.symm hf

theorem side_succ_ne {β : Type} {f : Side → β} (hf : f g.first ≠ f g.second) (k : ℕ) :
    f (g.side (k + 1)) ≠ f (g.side k) := by
  rcases Nat.mod_two_eq_zero_or_one k with hk | hk
  · have hk' : (k + 1) % 2 = 1 := by omega
    simpa [side, hk, hk'] using hf.symm
  · have hk' : (k + 1) % 2 = 0 := by omega
    simpa [side, hk, hk'] using hf

namespace Fair

variable (h : g.Fair)

include h

theorem goal_eq_desk_iff : g.goal n = g.desk ↔ ¬ n < g.total := by
  rw [goal]
  split
  · exact iff_of_false (h.desk n) (not_not_intro ‹_›)
  · exact iff_of_true rfl ‹_›

theorem of_goal_eq_box (hn : g.goal n = (g.side k).box) : n < g.total ∧ g.side k = g.side n := by
  rw [goal] at hn
  split at hn
  · exact ⟨‹_›, (side_eq_of h.boxes hn).symm⟩
  · exact absurd hn.symm (h.desk k)

end Fair

/-- The actor is one of the two. -/
def Plays (g : Rally) (a : ActorRef) : Prop := a = g.first.actor ∨ a = g.second.actor

instance (a : ActorRef) : Decidable (g.Plays a) := inferInstanceAs (Decidable (_ ∨ _))

theorem plays_side (k : ℕ) : g.Plays (g.side k).actor :=
  (g.side_eq_or k).imp (congrArg Side.actor) (congrArg Side.actor)

theorem Plays.exists_side {a : ActorRef} (h : g.Plays a) : ∃ k, a = (g.side k).actor := by
  rcases h with rfl | rfl
  · exact ⟨0, rfl⟩
  · exact ⟨1, rfl⟩

/-- The thread has something to do for one of the two. -/
def Concerns (g : Rally) (s : Midst signature) : Prop := ∃ a, s.actor? = some a ∧ g.Plays a

theorem not_concerns_free : ¬ g.Concerns .free := by
  rintro ⟨a, ha, -⟩
  cases ha

theorem concerns_dealing {a : ActorRef} {rest : Act signature Outcome} :
    g.Concerns (.dealing a rest) ↔ g.Plays a := by
  refine ⟨?_, fun h => ⟨a, rfl, h⟩⟩
  rintro ⟨b, hb, h⟩
  cases hb
  exact h

theorem not_concerns_having {a : ActorRef} (ha : ¬ g.Plays a) (rest : Act signature Outcome) :
    ¬ g.Concerns (.having a rest) := by
  cases rest with
  | done o => exact not_concerns_free
  | ask x next => exact concerns_dealing.not.mpr ha

/-- A message that this access hands to one of the two. -/
def dispatch? (g : Rally) (v : Visit signature) : Option (ActorRef × Message Value) :=
  match v.atom with
  | .dispatch a m => if g.Plays a then some (a, m) else none
  | _ => none

def dispatches (g : Rally) (c : Crew signature) : List (ActorRef × Message Value) :=
  c.past.filterMap fun e => g.dispatch? e.2

theorem dispatch?_eq_none {w : World signature} {x : Atom signature}
    (hx : ∀ a m, x = .dispatch a m → ¬ g.Plays a) : g.dispatch? ⟨w, x⟩ = none := by
  cases x with
  | dispatch a m => exact if_neg (hx a m rfl)
  | _ => rfl

theorem dispatches_snoc {i : ThreadId} {v : Visit signature} (hp : c'.past = c.past ++ [(i, v)]) :
    g.dispatches c' = g.dispatches c ++ (g.dispatch? v).toList := by
  simp only [dispatches, hp, List.filterMap_append]
  cases hm : g.dispatch? v <;> simp [hm]

/-! ## Where the letter is -/

/-- What there may be to do for a player who is about to send the next letter. -/
inductive Strikes (g : Rally) (k : ℕ) : Act signature Outcome → Prop
  | tells : Strikes g k (.ask (.report (g.overEvent k)) fun _ => g.posting k)
  | finds : Strikes g k (g.posting k)
  | puts : Strikes g k (.ask (.put (g.goal (k + 1)) (g.letter (k + 1))) fun _ => g.back k .complete)

theorem strikes_striking (k : ℕ) : g.Strikes k (g.striking k) := by
  rw [striking]
  split
  · exact .tells
  · exact .finds

theorem having_of_strikes {a : ActorRef} {rest : Act signature Outcome} (h : g.Strikes k rest) :
    Midst.having a rest = .dealing a rest := by
  cases h <;> rfl

/-- After `n` dispatches the letter has arrived, or a thread has the ball and has not handed it to
the player, or a player is about to send the next letter. -/
inductive Stands (company : Company signature) (g : Rally) :
    ℕ → Option (ThreadId × Midst signature) → Prop
  | arrived {n : ℕ} (hn : n ≤ g.total) : Stands company g n none
  | held {n : ℕ} {i : ThreadId} (hn : n < g.total) : Stands company g n (some (i,
      .dealing (g.side n).actor (Act.deal company (g.side n).actor (g.ball n))))
  | struck {n : ℕ} {i : ThreadId} {rest : Act signature Outcome} (hn : n < g.total)
    (h : g.Strikes n rest) : Stands company g (n + 1) (some (i, .dealing (g.side n).actor rest))

theorem Stands.concerns {holder : Option (ThreadId × Midst signature)}
    (h : Stands company g n holder) {i : ThreadId} {s : Midst signature}
    (hs : holder = some (i, s)) : g.Concerns s := by
  cases h with
  | arrived hn => cases hs
  | held hn | struck hn h =>
    cases hs
    exact ⟨_, rfl, plays_side _⟩

/-- All that is left to do for player `a` is to put it back. -/
def HasSent (g : Rally) (a : ActorRef) (rest : Act signature Outcome) : Prop :=
  ∃ k, a = (g.side k).actor ∧ rest = g.back k .complete

/-- What has arrived in mailbox `b`, when nobody has the letter. -/
def arrived (g : Rally) (n : ℕ) (holder : Option (ThreadId × Midst signature)) (b : BoxRef) :
    List (Message Value) :=
  if holder.isNone ∧ g.goal n = b then [g.letter n] else []

/-- After `n` dispatches, when this thread is the one that has the letter. -/
structure State (company : Company signature) (g : Rally) (c₀ c : Crew signature) (n : ℕ)
    (holder : Option (ThreadId × Midst signature)) : Prop where
  stands : Stands company g n holder
  placed : g.Placed c.world
  manned : g.Manned c.world
  mail : ∀ k, c.world.pool.mailOf (g.side k).actor = g.arrived n holder (g.side k).box
  desk : (c.letters g.desk).map (·.2) =
    (c₀.letters g.desk).map (·.2) ++ g.arrived n holder g.desk
  dispatches : g.dispatches c =
    g.dispatches c₀ ++ (List.range n).map fun k => ((g.side k).actor, g.ball k)
  midst : ∀ i s, holder = some (i, s) → c.midst company i = s
  /-- All others have sent their letters. -/
  others : ∀ i a rest, c.midst company i = .dealing a rest → g.Plays a →
    holder = some (i, .dealing a rest) ∨ g.HasSent a rest

namespace State

variable {holder : Option (ThreadId × Midst signature)} {m : Move signature}

/-- A step that has nothing to do with the rally. -/
theorem aside (h : State company g c₀ c n holder) (placed : g.Placed c'.world)
    (manned : g.Manned c'.world)
    (mail : ∀ k, c'.world.pool.mailOf (g.side k).actor = c.world.pool.mailOf (g.side k).actor)
    (desk : c'.letters g.desk = c.letters g.desk) (dispatches : g.dispatches c' = g.dispatches c)
    (midst : ∀ i, c'.midst company i = c.midst company i ∨
      ¬ g.Concerns (c.midst company i) ∧ ¬ g.Concerns (c'.midst company i)) :
    State company g c₀ c' n holder where
  stands := h.stands
  placed := placed
  manned := manned
  mail k := (mail k).trans (h.mail k)
  desk := by rw [desk, h.desk]
  dispatches := dispatches.trans h.dispatches
  midst i s hs := by
    rcases midst i with hsame | ⟨hnot, -⟩
    · exact hsame.trans (h.midst i s hs)
    · exact absurd (h.midst i s hs ▸ h.stands.concerns hs) hnot
  others i a rest hi ha := by
    rcases midst i with hsame | ⟨-, hnot⟩
    · exact h.others i a rest (hsame ▸ hi) ha
    · rw [hi, concerns_dealing] at hnot
      exact absurd ha hnot

theorem still (h : State company g c₀ c n holder) (world : c'.world = c.world)
    (past : c'.past = c.past) : State company g c₀ c' n holder := by
  have hmidst : c'.midst company = c.midst company :=
    Crew.midst_of_logbook (Crew.logbook_of_past past)
  refine h.aside (world ▸ h.placed) (world ▸ h.manned) (fun k => by rw [world]) ?_ ?_
    fun k => .inl (by rw [hmidst])
  · rw [Crew.letters, past, Crew.letters]
  · rw [Rally.dispatches, past, Rally.dispatches]

/-- When one thread goes on, all others have still sent their letters. -/
theorem others_of_assign (h : State company g c₀ c n holder) {i : ThreadId} {s : Midst signature}
    {holder' : Option (ThreadId × Midst signature)}
    (hmidst : c'.midst company = assign (c.midst company) i s)
    (hholder : ∀ k t, k ≠ i → holder = some (k, t) → holder' = some (k, t))
    (hs : ∀ a rest, s = .dealing a rest → holder' = some (i, s) ∨ g.HasSent a rest) :
    ∀ k a rest, c'.midst company k = .dealing a rest → g.Plays a →
      holder' = some (k, .dealing a rest) ∨ g.HasSent a rest := by
  intro k a rest hk ha
  by_cases hki : k = i
  · rw [hki, hmidst, assign_self] at hk
    rw [hki, ← hk]
    exact hs a rest hk
  · rw [hmidst, assign_of_ne _ _ hki] at hk
    exact (h.others k a rest hk ha).imp_left (hholder k _ hki)

end State

/-! ## Steps of others -/

theorem Manned.of_quiet (hc : company.Civil) (hbooked : Booked config company c)
    {m : Move signature} (hstep : c.step company m = some c') (h : g.Manned c.world)
    (hnot : ∀ i, m = .go i → ¬ g.Concerns (c.midst company i)) : g.Manned c'.world where
  self k := by
    obtain ⟨name, id, hself⟩ := h.self k
    have hsome : (c.world.pool.selfOf (g.side k).actor).isSome := by
      rw [hself]
      rfl
    have howns : c.Owns company (g.side k).actor (·.pool.selfOf (g.side k).actor) [m] :=
      hbooked.owns_self hc hsome
    rcases howns 0 m c c' rfl rfl hstep with hsame | ⟨i, hi, hactor⟩
    · exact ⟨name, id, hsame.trans hself⟩
    · exact absurd ⟨_, hactor, plays_side k⟩ (hnot i hi)
  box k := by
    have hplay : c.play company [m] = some c' := Moves.play_cons.mpr ⟨c', hstep, rfl⟩
    exact hbooked.sane.boxOf_play hc (h.box k) hplay

/-- No letter has come to this mailbox. -/
theorem letter_eq_none {i : ThreadId} {v : Visit signature} {b : BoxRef}
    (past : c'.past = c.past ++ [(i, v)]) (hletters : c'.letters b = c.letters b) :
    v.letter b = none := by
  have hsnoc := Crew.letters_snoc past b
  rw [hletters] at hsnoc
  simpa using hsnoc

namespace State

variable {holder : Option (ThreadId × Midst signature)} {msg : Message Value}

/-- What a player finds in its mailbox is the ball. -/
theorem found (hf : g.Fair) (h : State company g c₀ c n holder)
    (front : (c.world.pool.mailOf (g.side k).actor).head? = some msg) :
    holder = none ∧ n < g.total ∧ g.side k = g.side n ∧ msg = g.ball n := by
  have hk := h.mail k
  rw [arrived] at hk
  split at hk
  · rename_i hgoal
    obtain ⟨hn, hside⟩ := hf.of_goal_eq_box hgoal.2
    have hletter : g.letter n = g.ball n := if_pos hn
    rw [hk, hletter, List.head?_cons] at front
    exact ⟨Option.isNone_iff_eq_none.mp hgoal.1, hn, hside, (Option.some.inj front).symm⟩
  · rw [hk] at front
    cases front

/-- When it is taken nothing is left. -/
theorem emptied (hf : g.Fair) (h : State company g c₀ c n none) (hn : n < g.total)
    (hmail : ∀ j, ((⟨c.world, .takeMail (g.side n).actor⟩ : Visit signature).taken
      (g.side j).actor).toList ++ c'.world.pool.mailOf (g.side j).actor =
        c.world.pool.mailOf (g.side j).actor) (j : ℕ) :
    c'.world.pool.mailOf (g.side j).actor = [] := by
  have hgoal : g.goal n = (g.side n).box := if_pos hn
  have hserved : c.world.pool.mailOf (g.side n).actor = [g.letter n] := by
    rw [h.mail, arrived, if_pos ⟨rfl, hgoal⟩]
  have hj := hmail j
  by_cases hjn : g.goal n = (g.side j).box
  · have hside := (hf.of_goal_eq_box hjn).2
    have htaken : (⟨c.world, .takeMail (g.side n).actor⟩ : Visit signature).taken
        (g.side n).actor = some (g.letter n) := by
      simp only [Visit.taken, if_true, hserved, List.head?_cons]
    rw [hside, hserved, htaken] at hj
    rw [hside]
    exact (List.cons.inj hj).2
  · rw [h.mail j, arrived, if_neg fun hboth => hjn hboth.2] at hj
    exact (List.append_eq_nil_iff.mp hj).2

/-- The ball that has arrived is taken. -/
theorem taken (hf : g.Fair) (h : State company g c₀ c n holder) {i : ThreadId}
    (hplaced : g.Placed c'.world) (hmanned : g.Manned c'.world)
    (front : (c.world.pool.mailOf (g.side k).actor).head? = some msg)
    (hmail : ∀ j, ((⟨c.world, .takeMail (g.side k).actor⟩ : Visit signature).taken
      (g.side j).actor).toList ++ c'.world.pool.mailOf (g.side j).actor =
        c.world.pool.mailOf (g.side j).actor)
    (hdesk : c'.letters g.desk = c.letters g.desk) (hdispatches : g.dispatches c' = g.dispatches c)
    (hmidst : c'.midst company = assign (c.midst company) i
      (.dealing (g.side k).actor (Act.deal company (g.side k).actor msg))) :
    ∃ holder', State company g c₀ c' n holder' := by
  obtain ⟨rfl, hn, hside, rfl⟩ := h.found hf front
  rw [hside] at hmail hmidst
  refine ⟨some (i, .dealing (g.side n).actor (Act.deal company (g.side n).actor (g.ball n))),
    .held hn, hplaced, hmanned, h.emptied hf hn hmail, ?_, hdispatches.trans h.dispatches, ?_, ?_⟩
  · have hne : g.goal n ≠ g.desk := fun hd => (hf.goal_eq_desk_iff.mp hd) hn
    rw [hdesk, h.desk]
    simp [arrived, hne]
  · rintro k s hs
    cases hs
    rw [hmidst, assign_self]
  · exact h.others_of_assign hmidst (by rintro _ _ _ ⟨⟩) fun _ _ _ => .inl rfl

end State

/-- A thread that has nothing to do for the two goes on to something else that is not for them. -/
theorem apart_of_assign {i : ThreadId} {s : Midst signature}
    (hmidst : c'.midst company = assign (c.midst company) i s)
    (hbefore : ¬ g.Concerns (c.midst company i)) (hafter : ¬ g.Concerns s) (k : ThreadId) :
    c'.midst company k = c.midst company k ∨
      ¬ g.Concerns (c.midst company k) ∧ ¬ g.Concerns (c'.midst company k) := by
  by_cases hk : k = i
  · rw [hk, hmidst, assign_self]
    exact .inr ⟨hbefore, hafter⟩
  · exact .inl (by rw [hmidst, assign_of_ne _ _ hk])

/-- One more letter of the two is taken, or nothing at all. -/
theorem State.quiet (hc : company.Civil) (hf : g.Fair) (hbooked : Booked config company c)
    {holder : Option (ThreadId × Midst signature)} (h : State company g c₀ c n holder)
    {m : Move signature} (hstep : c.step company m = some c')
    (hnot : ∀ i, m = .go i → ¬ g.Concerns (c.midst company i)) (hplaced : g.Placed c'.world)
    (hsides : ∀ k, c'.letters (g.side k).box = c.letters (g.side k).box)
    (hdesk : c'.letters g.desk = c.letters g.desk) :
    ∃ holder', State company g c₀ c' n holder' := by
  have hmanned := h.manned.of_quiet hc hbooked hstep hnot
  cases hbooked.recorded hstep with
  | still i t before after stage world past => exact ⟨holder, h.still world past⟩
  | made i j x move job allows stage world past entry =>
    have hbefore := hnot i move
    have hmail : ∀ k, ((⟨c.world, x⟩ : Visit signature).taken (g.side k).actor).toList ++
        c'.world.pool.mailOf (g.side k).actor = c.world.pool.mailOf (g.side k).actor := by
      intro k
      have hbalance := mailOf_balance hbooked.sane.housed allows (h.manned.box k)
      rwa [letter_eq_none past (hsides k), Option.toList_none, List.append_nil, ← world] at hbalance
    have haside : (∀ k, (⟨c.world, x⟩ : Visit signature).taken (g.side k).actor = none) →
        (∀ a n, x = .dispatch a n → ¬ g.Plays a) →
        (∀ k, c'.midst company k = c.midst company k ∨
          ¬ g.Concerns (c.midst company k) ∧ ¬ g.Concerns (c'.midst company k)) →
        State company g c₀ c' n holder := by
      intro htaken hdispatch hmidst
      refine h.aside hplaced hmanned (fun k => ?_) hdesk ?_ hmidst
      · have hk := hmail k
        rwa [htaken k] at hk
      · rw [dispatches_snoc past, dispatch?_eq_none hdispatch]
        exact List.append_nil _
    generalize hl : c'.logbook company = l' at entry
    cases entry with
    | aside free allowed idle =>
      have hmidst : c'.midst company = c.midst company := Crew.midst_of_logbook hl
      refine ⟨holder, haside (fun k => Visit.taken_of_idle idle _) (fun a n hx => ?_)
        fun k => .inl (by rw [hmidst])⟩
      exact absurd hx (Atom.ne_dispatch_of_aside allowed a n)
    | @opens a msg free front =>
      have hmidst := Crew.midst_of_opened hl
      by_cases ha : g.Plays a
      · obtain ⟨k, rfl⟩ := ha.exists_side
        refine h.taken hf hplaced hmanned front hmail hdesk ?_ hmidst
        rw [dispatches_snoc past]
        exact List.append_nil _
      · refine ⟨holder, haside (fun k => if_neg ?_) (by rintro _ _ ⟨⟩)
          (apart_of_assign hmidst hbefore (concerns_dealing.not.mpr ha))⟩
        rintro rfl
        exact ha (plays_side k)
    | @goes a _ next midst =>
      have hactor : c.midst company i = .dealing a (.ask x next) := midst
      rw [hactor, concerns_dealing] at hbefore
      have hkind := hbooked.logged.kind hc midst
      refine ⟨holder, haside (fun k => Visit.taken_of_kind hkind _) (fun b n hx => ?_)
        (apart_of_assign (Crew.midst_of_advanced hl) (hnot i move) (not_concerns_having hbefore _))⟩
      subst hx
      rcases hkind with hx | hx
      · cases hx
      · rwa [of_decide_eq_true hx]

/-! ## Steps of the players -/

theorem Placed.effect {w : World signature} {x : Atom signature} (h : g.Placed w)
    (hx : x.keepsAddresses) : g.Placed (x.effect w) where
  side k := (Atom.find?_effect hx w _).trans (h.side k)
  address k := (Atom.addressOf_effect hx w _).trans (h.address k)
  desk := (Atom.find?_effect hx w _).trans h.desk

/-- The player that is found hits the ball. -/
theorem Placed.dispatched (hb : company.behaviour = behaviour) (hf : g.Fair)
    {w : World signature} (h : g.Placed w) (hmanned : g.Manned w) (hn : n < g.total) :
    (Act.afterDispatch company (g.side n).actor
        ((Atom.dispatch (g.side n).actor (g.ball n)).answer w) (g.ball n) >>=
      Act.conclude (g.side n).actor : Act signature Outcome) = g.striking n := by
  obtain ⟨name, id, hself⟩ := hmanned.self n
  have haddress : w.pool.addressOf (g.side n).actor = (g.side n).address := by
    rw [Pool.addressOf_eq, hmanned.box n]
    exact h.address n
  rw [Act.dispatch_answer hself, haddress]
  exact afterDispatch_ball hb hf.hits hn

theorem Placed.of_office {w w' : World signature} (h : g.Placed w)
    (hoffice : w'.pool.office = w.pool.office) : g.Placed w' where
  side k := hoffice ▸ h.side k
  address k := hoffice ▸ h.address k
  desk := hoffice ▸ h.desk

theorem Manned.effect {s : Stage signature} {x : Atom signature} {limit : ℕ}
    {w : World signature} (h : g.Manned w) (allows : s.Allows limit x)
    (hx : ∀ k, x.selfless (g.side k).actor) : g.Manned (x.effect w) where
  self k := by
    obtain ⟨name, id, hself⟩ := h.self k
    have hsome : (w.pool.selfOf (g.side k).actor).isSome := by
      rw [hself]
      rfl
    exact ⟨name, id, (Atom.selfOf_of_selfless (hx k) hsome).trans hself⟩
  box k := boxOf_effect_of_some (s := fun _ => s) (i := 0) allows (h.box k)

namespace State

variable {i : ThreadId} {holder : Option (ThreadId × Midst signature)} {x : Atom signature}
variable (h : State company g c₀ c n holder) (hbooked : Booked config company c)
variable (allows : (c.stage i).Allows config.maxActors x) (world : c'.world = x.effect c.world)
variable (past : c'.past = c.past ++ [(i, ⟨c.world, x⟩)])

include h hbooked allows world in
theorem mail_visited (hx : ∀ a, x ≠ .takeMail a) (k : ℕ) :
    c'.world.pool.mailOf (g.side k).actor = c.world.pool.mailOf (g.side k).actor ++
      ((⟨c.world, x⟩ : Visit signature).letter (g.side k).box).toList := by
  have hbalance := mailOf_balance hbooked.sane.housed allows (h.manned.box k)
  have htaken : (⟨c.world, x⟩ : Visit signature).taken (g.side k).actor = none := by
    cases x with
    | takeMail a => exact absurd rfl (hx a)
    | _ => rfl
  rwa [htaken, ← world] at hbalance

include hbooked allows world past in
/-- The thread that has the letter goes on. -/
theorem goesOn {s s' : Midst signature} {n' : ℕ} (h : State company g c₀ c n (some (i, s)))
    (stands : Stands company g n' (some (i, s'))) (placed : g.Placed (x.effect c.world))
    (hself : ∀ k, x.selfless (g.side k).actor) (hx : ∀ a, x ≠ .takeMail a)
    (hletter : ∀ b, (⟨c.world, x⟩ : Visit signature).letter b = none)
    (dispatches : g.dispatches c' =
      g.dispatches c₀ ++ (List.range n').map fun k => ((g.side k).actor, g.ball k))
    (hmidst : c'.midst company = assign (c.midst company) i s') :
    State company g c₀ c' n' (some (i, s')) where
  stands := stands
  placed := world ▸ placed
  manned := world ▸ h.manned.effect allows hself
  mail k := by
    rw [mail_visited h hbooked allows world hx, hletter, h.mail]
    exact List.append_nil _
  desk := by
    rw [Crew.letters_snoc past, hletter, h.desk, Option.toList_none, List.append_nil]
    rfl
  dispatches := dispatches
  midst i' t ht := by
    cases ht
    rw [hmidst, assign_self]
  others := h.others_of_assign hmidst (by rintro _ _ hki ⟨⟩; exact absurd rfl hki)
    fun _ _ _ => .inl rfl

include hbooked in
/-- The next letter arrives. -/
theorem sends {s : Midst signature} (h : State company g c₀ c n (some (i, s))) (hn : n ≤ g.total)
    (allows : (c.stage i).Allows config.maxActors (.put (g.goal n) (g.letter n)))
    (world : c'.world = (Atom.put (g.goal n) (g.letter n)).effect c.world)
    (past : c'.past = c.past ++ [(i, ⟨c.world, .put (g.goal n) (g.letter n)⟩)])
    (hmidst : c'.midst company = assign (c.midst company) i
      (.dealing (g.side k).actor (g.back k .complete))) :
    State company g c₀ c' n none where
  stands := .arrived hn
  placed := world ▸ h.placed.effect rfl
  manned := world ▸ h.manned.effect allows fun _ => rfl
  mail j := by
    have hbox := hbooked.sane.housed.box _ _ (h.manned.box j)
    rw [mail_visited h hbooked allows world (by rintro _ ⟨⟩), h.mail]
    by_cases hj : g.goal n = (g.side j).box
    · simp [arrived, Visit.letter, hj, hbox]
    · simp [arrived, Visit.letter, hj]
  desk := by
    have hbox : (c.world.pool.office.box? g.desk).isSome :=
      Office.box?_isSome_of_isOwned _ (Option.filter_eq_some_iff.mp h.placed.desk).2
    rw [Crew.letters_snoc past, h.desk]
    by_cases hj : g.goal n = g.desk
    · simp [arrived, Visit.letter, hj, hbox]
    · simp [arrived, Visit.letter, hj]
  dispatches := by
    rw [dispatches_snoc past]
    exact (List.append_nil _).trans h.dispatches
  midst _ _ := by rintro ⟨⟩
  others := by
    refine h.others_of_assign hmidst (by rintro _ _ hki ⟨⟩; exact absurd rfl hki) ?_
    rintro a rest ⟨⟩
    exact .inr ⟨k, rfl, rfl⟩

include h hbooked in
/-- A thread that has sent its letter puts the player back. -/
theorem retires (hf : g.Fair) (hnot : ∀ s, holder ≠ some (i, s))
    (allows : (c.stage i).Allows config.maxActors (.setRole (g.side k).actor (g.part (g.side k))))
    (world : c'.world =
      (Atom.setRole (g.side k).actor (g.part (g.side k)) : Atom signature).effect c.world)
    (past : c'.past = c.past ++ [(i, ⟨c.world, .setRole (g.side k).actor (g.part (g.side k))⟩)])
    (hmidst : c'.midst company = assign (c.midst company) i .free) :
    State company g c₀ c' n holder where
  stands := h.stands
  placed := world ▸ h.placed.effect rfl
  manned :=
    { self := fun j => by
        obtain ⟨name, id, hself⟩ := h.manned.self j
        refine ⟨name, id, ?_⟩
        rw [world]
        by_cases hjk : (g.side k).actor = (g.side j).actor
        · have hside := side_eq_of hf.actors hjk
          rw [hside]
          exact Atom.selfOf_setRole hself _
        · rw [← hself]
          exact Atom.selfOf_of_selfless (decide_eq_true hjk) (by rw [hself]; rfl)
      box := fun j => world ▸ boxOf_effect_of_some (s := c.stage) allows (h.manned.box j) }
  mail j := by
    rw [mail_visited h hbooked allows world (by rintro _ ⟨⟩), h.mail]
    exact List.append_nil _
  desk := by
    rw [Crew.letters_snoc past, h.desk]
    exact List.append_nil _
  dispatches := by
    rw [dispatches_snoc past]
    exact (List.append_nil _).trans h.dispatches
  midst i' s hs := by
    have hii : i' ≠ i := fun hii => hnot s (hii ▸ hs)
    rw [hmidst, assign_of_ne _ _ hii]
    exact h.midst i' s hs
  others := h.others_of_assign hmidst (fun _ _ _ hs => hs) (by rintro _ _ ⟨⟩)

/-- The thread that has the letter goes on, whatever it has to do. -/
theorem carries (hb : company.behaviour = behaviour) (hf : g.Fair)
    (hbooked : Booked config company c) {a : ActorRef} {x : Atom signature}
    {next : x.Answer → Act signature Outcome}
    (h : State company g c₀ c n (some (i, .dealing a (.ask x next))))
    (allows : (c.stage i).Allows config.maxActors x) (world : c'.world = x.effect c.world)
    (past : c'.past = c.past ++ [(i, ⟨c.world, x⟩)])
    (hmidst : c'.midst company = assign (c.midst company) i
      (.having a (next (x.answer c.world)))) :
    ∃ n' holder', State company g c₀ c' n' holder' := by
  have hstands := h.stands
  generalize hs : Midst.dealing a (.ask x next) = s at hstands
  cases hstands with
  | held hn =>
    rw [Act.deal_user company (g.side n).actor (m := g.ball n) rfl] at hs
    cases hs
    dsimp only at hmidst
    rw [h.placed.dispatched hb hf h.manned hn, having_of_strikes (strikes_striking n)] at hmidst
    refine ⟨n + 1, _, h.goesOn hbooked allows world past (.struck hn (strikes_striking n)) h.placed
      (fun _ => rfl) (by rintro _ ⟨⟩) (fun _ => rfl) ?_ hmidst⟩
    have hdispatch : g.dispatch? ⟨c.world, .dispatch (g.side n).actor (g.ball n)⟩ =
        some ((g.side n).actor, g.ball n) := if_pos (plays_side n)
    rw [dispatches_snoc past, hdispatch, h.dispatches, List.range_succ, List.map_append,
      List.append_assoc]
    rfl
  | @struck n _ rest hn hstrikes =>
    have hdispatches : (∀ a m, x ≠ .dispatch a m) → g.dispatches c' = g.dispatches c₀ ++
        (List.range (n + 1)).map fun k => ((g.side k).actor, g.ball k) := by
      intro hx
      rw [dispatches_snoc past, dispatch?_eq_none fun a m h => absurd h (hx a m)]
      exact (List.append_nil _).trans h.dispatches
    cases hstrikes with
    | tells =>
      cases hs
      exact ⟨n + 1, _, h.goesOn hbooked allows world past (.struck hn .finds) (h.placed.effect rfl)
        (fun _ => rfl) (by rintro _ ⟨⟩) (fun _ => rfl) (hdispatches (by rintro _ _ ⟨⟩)) hmidst⟩
    | finds =>
      rw [posting_eq] at hs
      cases hs
      have hfound : c.world.pool.office.resolve (g.target (n + 1)) =
          (some (g.goal (n + 1)), c.world.pool.office) := by
        refine Office.resolve_of_find? ?_
        rw [target, goal]
        split
        · exact h.placed.side (n + 1)
        · exact h.placed.desk
      have hplaced : g.Placed ((Atom.resolve (g.target (n + 1))).effect c.world) := by
        refine h.placed.of_office ?_
        change (c.world.pool.office.resolve (g.target (n + 1))).2 = _
        rw [hfound]
      have hanswer : (Atom.resolve (g.target (n + 1))).answer c.world = some (g.goal (n + 1)) :=
        congrArg (·.1) hfound
      rw [hanswer] at hmidst
      exact ⟨n + 1, _, h.goesOn hbooked allows world past (.struck hn .puts) hplaced
        (fun _ => rfl) (by rintro _ ⟨⟩) (fun _ => rfl) (hdispatches (by rintro _ _ ⟨⟩)) hmidst⟩
    | puts =>
      cases hs
      exact ⟨n + 1, none, h.sends hbooked hn allows world past hmidst⟩

/-- Whoever has something to do for a player goes on. -/
theorem acts (hb : company.behaviour = behaviour) (hf : g.Fair)
    (hbooked : Booked config company c) (h : State company g c₀ c n holder)
    (hstep : c.step company (.go i) = some c') (hconcerns : g.Concerns (c.midst company i)) :
    ∃ n' holder', State company g c₀ c' n' holder' := by
  cases hbooked.recorded hstep with
  | still i' t before after stage world past => exact ⟨n, holder, h.still world past⟩
  | made i' j x move job allows stage world past entry =>
    cases move
    generalize hl : c'.logbook company = l' at entry
    have hbusy : (c.logbook company).midst i ≠ .free := fun free =>
      not_concerns_free (show g.Concerns .free from free ▸ hconcerns)
    cases entry with
    | aside free allowed idle => exact absurd free hbusy
    | @opens a msg free front => exact absurd free hbusy
    | @goes a _ next midst =>
      have hactor : c.midst company i = .dealing a (.ask x next) := midst
      have hmidst := Crew.midst_of_advanced hl
      -- either the thread has the letter, or it has sent one and puts its player back
      by_cases hholder : ∃ s, holder = some (i, s)
      · obtain ⟨s, rfl⟩ := hholder
        obtain rfl : .dealing a (.ask x next) = s := hactor.symm.trans (h.midst i s rfl)
        exact h.carries hb hf hbooked allows world past hmidst
      · have hnot : ∀ s, holder ≠ some (i, s) := fun s hs => hholder ⟨s, hs⟩
        rw [hactor, concerns_dealing] at hconcerns
        obtain ⟨k, rfl, hrest⟩ := (h.others i a _ hactor hconcerns).resolve_left (hnot _)
        cases hrest
        exact ⟨n, holder, h.retires hbooked hf hnot allows world past hmidst⟩

end State

end Rally

end ActorSystem
