import ActorSystem.Proofs.Crew.Trails
import ActorSystem.Proofs.Roles.Rally

/-!
# Rallies in drains and sweeps

However threads drain and sweep two players who have a ball between them, each dispatch adds a hit,
and with the last one the referee is told.

* `Rally.Begins.played`: what comes of a rally that nobody disturbs.
* `Rally.Schedule.undisturbed`: drains and sweeps of the two disturb nothing.
-/

namespace ActorSystem

open Ensemble

variable {company : Company signature} {config : Config} {c₀ c c' d : Crew signature}
variable {g : Rally} {k n : ℕ}

namespace Rally

/-! ## Runs -/

/-- What everybody else does in this run leaves the rally alone: no letter is sent to a player or to
the referee, and all three stay where they are. -/
def Undisturbed (company : Company signature) (g : Rally) (c : Crew signature)
    (ms : List (Move signature)) : Prop :=
  ∀ k m d d', ms[k]? = some m → c.play company (ms.take k) = some d → d.step company m = some d' →
    (∃ i, m = .go i ∧ g.Concerns (d.midst company i)) ∨
      (g.Placed d.world → g.Placed d'.world) ∧
        (∀ j, d'.letters (g.side j).box = d.letters (g.side j).box) ∧
        d'.letters g.desk = d.letters g.desk

/-- The first player has been sent the ball, and nobody has done anything for the two yet. -/
structure Begins (company : Company signature) (g : Rally) (c : Crew signature) : Prop where
  apart : g.first.actor ≠ g.second.actor
  elsewhere : ∀ k, g.referee ≠ (g.side k).address
  hits : g.hits.toNat + 1 < UInt32.size
  placed : g.Placed c.world
  manned : g.Manned c.world
  served : c.world.pool.mailOf g.first.actor = [g.ball 0]
  waiting : c.world.pool.mailOf g.second.actor = []
  free : ∀ i, ¬ g.Concerns (c.midst company i)

/-- Whoever deals with a message of the two has sent the next letter. -/
def Sent (company : Company signature) (g : Rally) (c : Crew signature) : Prop :=
  ∀ i a rest, c.midst company i = .dealing a rest → g.Plays a → g.HasSent a rest

theorem sent_of_free (h : ∀ i, ¬ g.Concerns (c.midst company i)) : g.Sent company c :=
  fun i _ _ hi ha => absurd (concerns_dealing.mpr ha) (hi ▸ h i)

/-- What holds of a rally after `n` dispatches. -/
structure Played (company : Company signature) (g : Rally) (c₀ c : Crew signature) (n : ℕ) :
    Prop where
  le : n ≤ g.total
  /-- The players take turns, and each gets the ball with one hit more. -/
  dispatches : g.dispatches c =
    g.dispatches c₀ ++ (List.range n).map fun k => ((g.side k).actor, g.ball k)
  /-- When nobody is about to send a letter, the next player has the ball in its mailbox, or the
  referee has been told. -/
  between : g.Sent company c →
    n < g.total ∧ c.world.pool.mailOf (g.side n).actor = [g.ball n] ∧
        c.world.pool.mailOf (g.side (n + 1)).actor = [] ∧
        (c.letters g.desk).map (·.2) = (c₀.letters g.desk).map (·.2) ∨
      n = g.total ∧ (∀ k, c.world.pool.mailOf (g.side k).actor = []) ∧
        (c.letters g.desk).map (·.2) = (c₀.letters g.desk).map (·.2) ++ [g.gameOver]
  cleared : n = g.total → ∀ k, c.world.pool.mailOf (g.side k).actor = []
  /-- There are never two letters. -/
  single : (c.world.pool.mailOf g.first.actor).length +
    (c.world.pool.mailOf g.second.actor).length + (c.letters g.desk).length ≤
      (c₀.letters g.desk).length + 1
  /-- A message that is being dealt with can be dealt with to the end. -/
  ends : ∀ i a rest, c.midst company i = .dealing a rest → g.Plays a →
    ∃ k d, c.play company (List.replicate k (.go i)) = some d ∧
      (d.dossier company a).current = none

theorem Begins.fair (h : g.Begins company c) (hsane : Sane config c)
    (hlisted : c.world.pool.office.Listed) : g.Fair where
  actors := h.apart
  boxes hbox := by
    have hfirst := h.manned.box 0
    have hsecond := h.manned.box 1
    rw [show (g.side 0).box = (g.side 1).box from hbox] at hfirst
    exact h.apart (hsane.housed.apart _ _ _ hfirst hsecond)
  desk k hbox := by
    have hside := (Option.filter_eq_some_iff.mp (h.placed.side k)).1
    have hdesk := (Option.filter_eq_some_iff.mp h.placed.desk).1
    rw [hbox] at hside
    exact h.elsewhere k
      (hlisted.once _ _ _ (Office.mem_of_lookup hdesk) (Office.mem_of_lookup hside))
  hits := h.hits

theorem Begins.state (h : g.Begins company c) (hf : g.Fair) : State company g c c 0 none where
  stands := .arrived (Nat.zero_le _)
  placed := h.placed
  manned := h.manned
  mail k := by
    have hgoal : g.goal 0 = g.first.box := if_pos g.total_pos
    have hletter : g.letter 0 = g.ball 0 := if_pos g.total_pos
    rcases g.side_eq_or k with hk | hk <;> rw [hk, arrived, hgoal, hletter]
    · rw [if_pos ⟨rfl, rfl⟩]
      exact h.served
    · rw [if_neg fun hboth => hf.boxes hboth.2]
      exact h.waiting
  desk := by
    have hgoal : g.goal 0 ≠ g.desk := fun hdesk => hf.goal_eq_desk_iff.mp hdesk g.total_pos
    simp [arrived, hgoal]
  dispatches := (List.append_nil _).symm
  midst _ _ := by rintro ⟨⟩
  others i _ _ hi ha := absurd (concerns_dealing.mpr ha) (hi ▸ h.free i)

/-- The letter of the rally is at one place all the time. -/
theorem Begins.state_play (hc : company.Civil) (hb : company.behaviour = behaviour)
    (h₀ : Booked config company c₀) (hlisted : c₀.world.pool.office.Listed)
    (h : g.Begins company c₀) {ms : List (Move signature)} (hquiet : g.Undisturbed company c₀ ms)
    (hplay : c₀.play company ms = some c) : ∃ n holder, State company g c₀ c n holder := by
  have hf := h.fair h₀.sane hlisted
  refine Moves.play_along (P := fun d => ∃ n holder, State company g c₀ d n holder)
    (fun k m d d' hm hd hstep ⟨n, holder, hstate⟩ => ?_) ⟨0, none, h.state hf⟩ hplay
  have hbooked := h₀.play hc hd
  by_cases hconcerns : ∃ i, m = .go i ∧ g.Concerns (d.midst company i)
  · obtain ⟨i, rfl, hi⟩ := hconcerns
    exact hstate.acts hb hf hbooked hstep hi
  · obtain ⟨hplaced, hsides, hdesk⟩ := (hquiet k m d d' hm hd hstep).resolve_left hconcerns
    obtain ⟨holder', hnext⟩ := hstate.quiet hc hf hbooked hstep
      (fun i hi hbusy => hconcerns ⟨i, hi, hbusy⟩) (hplaced hstate.placed) hsides hdesk
    exact ⟨n, holder', hnext⟩

theorem not_strikes_back {j : ℕ} : ¬ g.Strikes k (g.back j .complete) := by
  intro h
  generalize hrest : g.back j .complete = rest at h
  cases h with
  | tells | puts => cases hrest
  | finds =>
    rw [posting_eq] at hrest
    cases hrest

namespace State

variable {holder : Option (ThreadId × Midst signature)} (h : State company g c₀ c n holder)

include h

theorem le_total : n ≤ g.total := by
  cases h.stands with
  | arrived hn => exact hn
  | held hn => exact Nat.le_of_lt hn
  | struck hn _ => exact hn

theorem mail_over (hf : g.Fair) (hn : n = g.total) (k : ℕ) :
    c.world.pool.mailOf (g.side k).actor = [] := by
  rw [h.mail, arrived, if_neg]
  rintro ⟨-, hgoal⟩
  exact absurd (hf.of_goal_eq_box hgoal).1 (by omega)

theorem holder_eq_none (hsent : g.Sent company c) : holder = none := by
  cases hs : holder with
  | none => rfl
  | some x =>
    obtain ⟨i, s⟩ := x
    have hi := h.midst i s hs
    have hstands := h.stands
    rw [hs] at hstands
    cases hstands with
    | held hn =>
      obtain ⟨k, -, hk⟩ := hsent i _ _ hi (plays_side n)
      rw [Act.deal_user company (g.side n).actor (m := g.ball n) rfl] at hk
      cases hk
    | @struck n _ rest hn hstrikes =>
      obtain ⟨k, -, rfl⟩ := hsent i _ _ hi (plays_side n)
      exact absurd hstrikes not_strikes_back

theorem between (hf : g.Fair) (hsent : g.Sent company c) :
    n < g.total ∧ c.world.pool.mailOf (g.side n).actor = [g.ball n] ∧
        c.world.pool.mailOf (g.side (n + 1)).actor = [] ∧
        (c.letters g.desk).map (·.2) = (c₀.letters g.desk).map (·.2) ∨
      n = g.total ∧ (∀ k, c.world.pool.mailOf (g.side k).actor = []) ∧
        (c.letters g.desk).map (·.2) = (c₀.letters g.desk).map (·.2) ++ [g.gameOver] := by
  obtain rfl := h.holder_eq_none hsent
  rcases Nat.lt_or_eq_of_le h.le_total with hn | hn
  · have hgoal : g.goal n = (g.side n).box := if_pos hn
    have hletter : g.letter n = g.ball n := if_pos hn
    have hdesk := h.desk
    rw [arrived, if_neg fun hboth => hf.goal_eq_desk_iff.mp hboth.2 hn, List.append_nil] at hdesk
    refine .inl ⟨hn, ?_, ?_, hdesk⟩
    · rw [h.mail, arrived, if_pos ⟨rfl, hgoal⟩, hletter]
    · rw [h.mail, arrived, if_neg]
      rintro ⟨-, hother⟩
      exact side_succ_ne hf.boxes n (hother.symm.trans hgoal)
  · have hnot : ¬ n < g.total := by omega
    have hdesk := h.desk
    rw [arrived, if_pos ⟨rfl, hf.goal_eq_desk_iff.mpr hnot⟩, letter, if_neg hnot] at hdesk
    exact .inr ⟨hn, h.mail_over hf hn, hdesk⟩

theorem single (hf : g.Fair) : (c.world.pool.mailOf g.first.actor).length +
    (c.world.pool.mailOf g.second.actor).length + (c.letters g.desk).length ≤
      (c₀.letters g.desk).length + 1 := by
  have hfirst := congrArg List.length (h.mail 0)
  have hsecond := congrArg List.length (h.mail 1)
  have hdesk := congrArg List.length h.desk
  have hfirst_ne : g.first.box ≠ g.desk := hf.desk 0
  have hsecond_ne : g.second.box ≠ g.desk := hf.desk 1
  have hboxes := hf.boxes
  change (c.world.pool.mailOf g.first.actor).length =
    (g.arrived n holder g.first.box).length at hfirst
  change (c.world.pool.mailOf g.second.actor).length =
    (g.arrived n holder g.second.box).length at hsecond
  rw [List.length_append, List.length_map, List.length_map] at hdesk
  rw [hfirst, hsecond, hdesk]
  -- the letter cannot have arrived in two mailboxes
  clear hfirst hsecond hdesk h
  grind [arrived]

end State

/-! ### Going on to the end -/

theorem back_prompt (k : ℕ) (o : Outcome) : (g.back k o).All (·.prompt) := ⟨rfl, fun _ => trivial⟩

theorem posting_prompt (k : ℕ) : (g.posting k).All (·.prompt) :=
  Dialogue.all_bind (Act.post_prompt _ _) fun _ => back_prompt k _

theorem prompt_of_strikes {rest : Act signature Outcome} (h : g.Strikes k rest) :
    rest.All (·.prompt) := by
  cases h with
  | tells => exact ⟨rfl, fun _ => posting_prompt k⟩
  | finds => exact posting_prompt k
  | puts => exact ⟨rfl, fun _ => back_prompt k _⟩

theorem State.ends (hc : company.Civil) (hb : company.behaviour = behaviour) (hf : g.Fair)
    (hbooked : Booked config company c) {holder : Option (ThreadId × Midst signature)}
    (h : State company g c₀ c n holder) {i : ThreadId} {a : ActorRef}
    {rest : Act signature Outcome} (hi : c.midst company i = .dealing a rest) (ha : g.Plays a) :
    ∃ k d, c.play company (List.replicate k (.go i)) = some d ∧
      (d.dossier company a).current = none := by
  obtain ⟨m, vs, x, next, hcurrent, rfl, -⟩ := hbooked.logged.under i a rest hi
  have hhaving : c.midst company i = .having a (.ask x next) := hi
  have hfinish : (Dialogue.ask x next : Act signature Outcome).All (·.prompt) →
      ∃ k d, c.play company (List.replicate k (.go i)) = some d ∧
        (d.dossier company a).current = none := fun hprompt =>
    let ⟨k, d, hplay, hnone, _⟩ := hbooked.closes hc hhaving (by rintro _ ⟨⟩) hprompt
    ⟨k, d, hplay, hnone⟩
  rcases h.others i a _ hi ha with rfl | ⟨k, rfl, hrest⟩
  · have hstands := h.stands
    generalize hs : Midst.dealing a (.ask x next) = s at hstands
    cases hstands with
    | held hn =>
      rw [Act.deal_user company (g.side n).actor (m := g.ball n) rfl] at hs
      cases hs
      obtain ⟨c', hstep, hbooked', hlog⟩ := hbooked.advance hc hi rfl
      obtain ⟨hmidst, -⟩ := Booked.advanced hlog
      rw [h.placed.dispatched hb hf h.manned hn] at hmidst
      have hstrikes := strikes_striking (g := g) n
      obtain ⟨k, d, hplay, hnone, -⟩ := hbooked'.closes hc hmidst (fun o ho => by
        have hdealing := having_of_strikes (a := (g.side n).actor) hstrikes
        rw [ho] at hdealing
        cases hdealing) (prompt_of_strikes hstrikes)
      exact ⟨k + 1, d, Moves.play_cons.mpr ⟨c', hstep, hplay⟩, hnone⟩
    | struck hn hstrikes =>
      cases hs
      exact hfinish (prompt_of_strikes hstrikes)
  · rw [hrest] at hfinish
    exact hfinish (back_prompt k _)

theorem State.played (hc : company.Civil) (hb : company.behaviour = behaviour) (hf : g.Fair)
    (hbooked : Booked config company c) {holder : Option (ThreadId × Midst signature)}
    (h : State company g c₀ c n holder) : Played company g c₀ c n where
  le := h.le_total
  dispatches := h.dispatches
  between := h.between hf
  cleared := h.mail_over hf
  single := h.single hf
  ends _ _ _ hi ha := h.ends hc hb hf hbooked hi ha

/-- What comes of a rally that nobody disturbs. -/
theorem Begins.played (hc : company.Civil) (hb : company.behaviour = behaviour)
    (h₀ : Booked config company c₀) (hlisted : c₀.world.pool.office.Listed)
    (h : g.Begins company c₀) {ms : List (Move signature)} (hquiet : g.Undisturbed company c₀ ms)
    (hplay : c₀.play company ms = some c) : ∃ n, g.Played company c₀ c n := by
  obtain ⟨n, holder, hstate⟩ := h.state_play hc hb h₀ hlisted hquiet hplay
  exact ⟨n, hstate.played hc hb (h.fair h₀.sane hlisted) (h₀.play hc hplay)⟩

/-! ## Drains and sweeps of the two -/

/-- A run in which threads do nothing but drain and sweep, and take no mail but that of the two. -/
structure Schedule (company : Company signature) (g : Rally) (c₀ : Crew signature)
    (ms : List (Move signature)) (c : Crew signature) : Prop where
  plays : c₀.play company ms = some c
  sweeping : ∀ i j, c₀.jobs i = some j → j.routine.drains
  free : ∀ i, c₀.midst company i = .free
  drains : ∀ i r, Move.begin i r ∈ ms → r.drains
  alone : ∀ a, ¬ g.Plays a → c.taken a = c₀.taken a

/-- Whoever takes mail takes it for one of the two. -/
structure Swept (company : Company signature) (g : Rally) (c : Crew signature) : Prop where
  jobs : ∀ i j, c.jobs i = some j → j.routine.drains
  midst : ∀ i, c.midst company i = .free ∨ g.Concerns (c.midst company i)

namespace Swept

variable {m : Move signature}

theorem jobs_step (h : Swept company g c) (hstep : c.step company m = some c')
    (hdrains : ∀ i r, m = .begin i r → r.drains) {i : ThreadId} {j : Job signature}
    (hj : c'.jobs i = some j) : j.routine.drains := by
  rcases Crew.job_cases hstep hj with ⟨r, hm, rfl, -⟩ | ⟨l, x, next, hl, -, rfl, -⟩ | ⟨hold, -⟩
  · exact hdrains i r hm
  · exact h.jobs i l hl
  · exact h.jobs i j hold

theorem concerns_having {a : ActorRef} (ha : g.Plays a) (rest : Act signature Outcome) :
    Midst.having a rest = .free ∨ g.Concerns (.having a rest) := by
  cases rest with
  | done o => exact .inl rfl
  | ask x next => exact .inr (concerns_dealing.mpr ha)

theorem midst_of_assign (h : Swept company g c) {i : ThreadId} {s : Midst signature}
    (hmidst : c'.midst company = assign (c.midst company) i s) (hs : s = .free ∨ g.Concerns s)
    (k : ThreadId) : c'.midst company k = .free ∨ g.Concerns (c'.midst company k) := by
  rw [hmidst]
  by_cases hk : k = i
  · rw [hk, assign_self]
    exact hs
  · rw [assign_of_ne _ _ hk]
    exact h.midst k

/-- What a drain or a sweep does by itself sends no letters and moves nobody. -/
theorem quiet_of_aside {x : Atom signature} (hx : x.aside true) :
    x.keepsAddresses ∧ ∀ b n, x ≠ .put b n := by
  rcases hx with hx | ⟨a, rfl⟩
  · cases x <;> first | cases hx; done | exact ⟨rfl, by rintro _ _ ⟨⟩⟩
  · exact ⟨rfl, by rintro _ _ ⟨⟩⟩

/-- A thread that is not concerned with the two does nothing to the rally. -/
theorem step (hbooked : Booked config company c) (h : Swept company g c)
    (hstep : c.step company m = some c') (hdrains : ∀ i r, m = .begin i r → r.drains)
    (halone : ∀ a, ¬ g.Plays a → c'.taken a = c.taken a) :
    Swept company g c' ∧ ((∃ i, m = .go i ∧ g.Concerns (c.midst company i)) ∨
      (g.Placed c.world → g.Placed c'.world) ∧ ∀ b, c'.letters b = c.letters b) := by
  have hjobs : ∀ i j, c'.jobs i = some j → j.routine.drains :=
    fun i j hj => h.jobs_step hstep hdrains hj
  cases hbooked.recorded hstep with
  | still i t before after stage world past =>
    have hmidst : c'.midst company = c.midst company :=
      Crew.midst_of_logbook (Crew.logbook_of_past past)
    refine ⟨⟨hjobs, fun i => ?_⟩, .inr ⟨fun hplaced => world ▸ hplaced, fun b => ?_⟩⟩
    · rw [hmidst]
      exact h.midst i
    · rw [Crew.letters, past, Crew.letters]
  | made i j x move job allows stage world past entry =>
    have hquiet : (x.keepsAddresses ∧ ∀ b n, x ≠ .put b n) →
        (g.Placed c.world → g.Placed c'.world) ∧ ∀ b, c'.letters b = c.letters b := by
      rintro ⟨hx, hput⟩
      refine ⟨fun hplaced => world ▸ hplaced.effect hx, fun b => ?_⟩
      have hnone : (⟨c.world, x⟩ : Visit signature).letter b = none := by
        cases x with
        | put b' n => exact absurd rfl (hput b' n)
        | _ => rfl
      rw [Crew.letters, past, List.filterMap_append, Crew.letters]
      simp [hnone]
    generalize hl : c'.logbook company = l' at entry
    cases entry with
    | aside free allowed idle =>
      have hmidst : c'.midst company = c.midst company := Crew.midst_of_logbook hl
      rw [h.jobs i j job] at allowed
      refine ⟨⟨hjobs, fun k => ?_⟩, .inr (hquiet (quiet_of_aside allowed))⟩
      rw [hmidst]
      exact h.midst k
    | @opens a msg free front =>
      have ha : g.Plays a := by
        by_contra hother
        have htaken : (⟨c.world, .takeMail a⟩ : Visit signature).taken a = some msg :=
          (if_pos rfl).trans front
        have hsame := halone a hother
        rw [Crew.taken_snoc past, htaken] at hsame
        simp at hsame
      refine ⟨⟨hjobs, ?_⟩, .inr (hquiet (quiet_of_aside (.inr ⟨a, rfl⟩)))⟩
      exact h.midst_of_assign (Crew.midst_of_opened hl) (.inr (concerns_dealing.mpr ha))
    | @goes a _ next midst =>
      have hactor : c.midst company i = .dealing a (.ask x next) := midst
      have hconcerns : g.Concerns (c.midst company i) := by
        rcases h.midst i with hfree | hconcerns
        · rw [hactor] at hfree
          cases hfree
        · exact hconcerns
      refine ⟨⟨hjobs, ?_⟩, .inl ⟨i, move, hconcerns⟩⟩
      rw [hactor, concerns_dealing] at hconcerns
      exact h.midst_of_assign (Crew.midst_of_advanced hl) (concerns_having hconcerns _)

end Swept

end Rally

namespace Crew

theorem taken_play {ms : List (Move signature)} (hplay : c.play company ms = some d)
    (a : ActorRef) : c.taken a <+: d.taken a := by
  obtain ⟨vs, hpast⟩ := past_play hplay
  exact ⟨vs.filterMap (·.2.taken a), by rw [taken, taken, hpast, List.filterMap_append]⟩

/-- What is not taken in a whole run is not taken in any step of it. -/
theorem taken_of_play {ms : List (Move signature)} (hplay : c₀.play company ms = some d)
    {m : Move signature} (hm : ms[k]? = some m) (hc : c₀.play company (ms.take k) = some c)
    (hstep : c.step company m = some c') {a : ActorRef} (hsame : d.taken a = c₀.taken a) :
    c'.taken a = c.taken a := by
  have hsplit : ms = ms.take k ++ m :: ms.drop (k + 1) := by
    obtain ⟨hk, rfl⟩ := List.getElem?_eq_some_iff.mp hm
    rw [← List.drop_eq_getElem_cons hk, List.take_append_drop]
  have hrest : c'.play company (ms.drop (k + 1)) = some d := by
    rw [hsplit] at hplay
    obtain ⟨r, hr, hplay⟩ := Moves.play_split hplay
    obtain ⟨r', hr', hplay⟩ := Moves.play_cons.mp hplay
    cases hc.symm.trans hr
    cases hstep.symm.trans hr'
    exact hplay
  have hone : c.play company [m] = some c' := Moves.play_cons.mpr ⟨c', hstep, rfl⟩
  -- what was taken before this step and after it lies between what was taken first and last
  have hlast := (taken_play hrest a).length_le
  rw [hsame] at hlast
  have hearlier := (taken_play hc a).length_le
  exact ((taken_play hone a).eq_of_length_le (by omega)).symm

end Crew

namespace Rally

namespace Schedule

variable {ms : List (Move signature)}

/-- Those who drain and sweep deal with the two players only. -/
theorem undisturbed (hc : company.Civil) (h₀ : Booked config company c₀)
    (h : g.Schedule company c₀ ms c) : g.Undisturbed company c₀ ms := by
  have hswept : ∀ k m d d', ms[k]? = some m → c₀.play company (ms.take k) = some d →
      d.step company m = some d' → Swept company g d →
      Swept company g d' ∧ ((∃ i, m = .go i ∧ g.Concerns (d.midst company i)) ∨
        (g.Placed d.world → g.Placed d'.world) ∧ ∀ b, d'.letters b = d.letters b) := by
    intro k m d d' hm hd hstep hswept
    refine hswept.step (h₀.play hc hd) hstep (fun i r hr => ?_) fun a ha => ?_
    · exact h.drains i r (hr ▸ List.mem_of_getElem? hm)
    · exact Crew.taken_of_play h.plays hm hd hstep (h.alone a ha)
  intro k m d d' hm hd hstep
  -- the run up to this step is swept, for it is a part of the schedule
  have hearlier : Swept company g d := by
    refine Moves.play_along (P := Swept company g) (fun j n e e' hn he => ?_)
      ⟨h.sweeping, fun i => .inl (h.free i)⟩ hd
    have hjk : j < k := by
      by_contra hkj
      rw [List.getElem?_take, if_neg hkj] at hn
      cases hn
    rw [List.getElem?_take_of_lt hjk] at hn
    rw [List.take_take, Nat.min_eq_left (Nat.le_of_lt hjk)] at he
    exact fun hstep hswept' => (hswept j n e e' hn he hstep hswept').1
  refine (hswept k m d d' hm hd hstep hearlier).2.imp_right fun ⟨hplaced, hletters⟩ => ?_
  exact ⟨hplaced, fun j => hletters _, hletters _⟩

end Schedule

end Rally

/-- Two players send a ball back and forth, whoever drains or sweeps them and when. There is one
letter all the time: the ball, which gets one hit more with each dispatch, or what the referee gets in
the end, from whoever made the last hit. -/
theorem rally_keeps_one_letter (hc : company.Civil) (hb : company.behaviour = behaviour)
    {env : Notebook} {ms₀ ms : List (Move signature)}
    (h₀ : (Crew.empty config env).play company ms₀ = some c₀) (hbegins : g.Begins company c₀)
    (hschedule : g.Schedule company c₀ ms c) : ∃ n, g.Played company c₀ c n := by
  have hbooked : Booked config company c₀ := (Booked.empty config env).play hc h₀
  exact hbegins.played hc hb hbooked (Sane.listed hc h₀) (hschedule.undisturbed hc hbooked)
    hschedule.plays

/-! ## A rally of three hits -/

def Move.thread : Move signature → ThreadId
  | .begin i _ | .go i => i

/-- A thread that does not move has the job that it had. -/
theorem Crew.jobs_play {ms : List (Move signature)} (hplay : c.play company ms = some d)
    {i : ThreadId} (h : ∀ m ∈ ms, m.thread ≠ i) : d.jobs i = c.jobs i := by
  refine Moves.play_induction_of (P := fun d : Crew signature => d.jobs i = c.jobs i)
    (A := fun m => m.thread ≠ i) ?_ h rfl hplay
  rintro d d' m hm hjobs hstep
  rcases step_cases hstep with ⟨k, r, rfl, -, rfl⟩ | ⟨k, j, o, rfl, -, -, rfl⟩ |
    ⟨k, j, x, next, rfl, -, -, -, rfl⟩ <;>
  exact (assign_of_ne _ _ (Ne.symm hm)).trans hjobs

namespace Rally

def threeHits : Rally where
  first := ⟨0, 0, ⟨1⟩, "ping"⟩
  second := ⟨1, 1, ⟨2⟩, "pong"⟩
  referee := ⟨3⟩
  desk := 2
  length := 3
  hits := 0

def opening : List (Move signature) :=
  turn 0 (hire (.player ⟨"ping", 3, ⟨3⟩⟩)) 12 ++ turn 0 (hire (.player ⟨"pong", 3, ⟨3⟩⟩)) 12 ++
    turn 0 (hire .echo) 12 ++ turn 0 (send ⟨1⟩ ⟨some ⟨2⟩, .user (.ball ⟨0⟩)⟩) 3

/-- While a sweep is still with the first player, another thread drains the second one. -/
def volleys : List (Move signature) :=
  turn 1 (.sweep 0 9) 12 ++ turn 2 (.drain 1) 12 ++ List.replicate 10 (.go 1) ++
    turn 2 (.drain 0) 13

def opened : Option (Crew signature) := (Crew.empty {} {} : Crew signature).play staff opening

def asPlayer (part : Part) : Option Player :=
  match part with
  | .player p => some p
  | _ => none

/-- A ball that comes from somewhere. -/
def service (m : Message Value) : Option (Option Address × UInt32) :=
  match m.body with
  | .user (.ball b) => some (m.source, b.hits)
  | _ => none

theorem booked_of_opened {c : Crew signature} (h : opened = some c) : Booked {} staff c := by
  have hplay : (Crew.empty {} {} : Crew signature).play staff opening = some c := h
  exact (Booked.empty _ _).play staff_civil hplay

theorem jobs_of_opened {c : Crew signature} (h : opened = some c) (i : ThreadId) :
    c.jobs i = none := by
  have hmoves : opening.all fun m => decide (m.thread = 0) := by decide +kernel
  have hzero : opened.map (fun c => (c.jobs 0).isNone) = some true := by decide +kernel
  by_cases hi : i = 0
  · rw [h, Option.map_some, Option.some.injEq] at hzero
    rw [hi]
    exact Option.isNone_iff_eq_none.mp hzero
  · refine Crew.jobs_play h fun m hm => ?_
    rw [of_decide_eq_true (List.all_eq_true.mp hmoves m hm)]
    exact Ne.symm hi

theorem exists_asPlayer {s : Option (Part × String × Option ActorId)} {p : Player} {name : String}
    {id : Option ActorId} (h : s.map (fun x => (asPlayer x.1, x.2)) = some (some p, name, id)) :
    s = some (.player p, name, id) := by
  obtain ⟨⟨part, rest⟩, rfl, hpart⟩ := Option.map_eq_some_iff.mp h
  obtain ⟨hpart, rfl⟩ := Prod.mk.inj hpart
  cases part <;> cases hpart
  rfl

theorem eq_of_service {m : Message Value} {source : Option Address} {hits : UInt32}
    (h : service m = some (source, hits)) : m = ⟨source, .user (.ball ⟨hits⟩)⟩ := by
  rw [service] at h
  split at h
  · rename_i b hb
    obtain ⟨rfl, rfl⟩ := Prod.mk.inj (Option.some.inj h)
    exact congrArg (Message.mk m.source) hb
  · cases h

theorem begins_of_opened {c : Crew signature} (h : opened = some c) :
    threeHits.Begins staff c := by
  have hoffice : opened.map (fun c => ([1, 2, 3].map fun k => c.world.pool.office.find? ⟨k⟩,
      [0, 1].map c.world.pool.office.addressOf)) =
      some ([some 0, some 1, some 2], [⟨1⟩, ⟨2⟩]) := by decide +kernel
  have hselves : opened.map (fun c => [0, 1].map fun a =>
      (c.world.pool.selfOf a).map fun s => (asPlayer s.1, s.2)) =
      some [some (some ⟨"ping", 3, ⟨3⟩⟩, "ping", some ⟨1⟩),
        some (some ⟨"pong", 3, ⟨3⟩⟩, "pong", some ⟨2⟩)] := by decide +kernel
  have hboxes : opened.map (fun c => [0, 1].map c.world.pool.boxOf) = some [some 0, some 1] := by
    decide +kernel
  have hmail : opened.map (fun c => [0, 1].map fun a => (c.world.pool.mailOf a).map service) =
      some [[some (some ⟨2⟩, 0)], []] := by decide +kernel
  rw [h, Option.map_some, Option.some.injEq] at hoffice hselves hboxes hmail
  simp only [Prod.mk.injEq, List.map_cons, List.map_nil, List.cons.injEq, and_true]
    at hoffice hselves hboxes hmail
  obtain ⟨⟨hfirst, hsecond, hdesk⟩, hfirst', hsecond'⟩ := hoffice
  obtain ⟨hping, hpong⟩ := hselves
  obtain ⟨hpingBox, hpongBox⟩ := hboxes
  obtain ⟨hserved, hwaiting⟩ := hmail
  refine
    { apart := by decide
      elsewhere := fun k => ?_
      hits := by decide
      placed := ⟨fun k => ?_, fun k => ?_, hdesk⟩
      manned := ⟨fun k => ?_, fun k => ?_⟩
      served := ?_
      waiting := List.map_eq_nil_iff.mp hwaiting
      free := fun i => ?_ }
  · rcases threeHits.side_eq_or k with hk | hk <;> rw [hk] <;> decide
  · rcases threeHits.side_eq_or k with hk | hk <;> rw [hk]
    · exact hfirst
    · exact hsecond
  · rcases threeHits.side_eq_or k with hk | hk <;> rw [hk]
    · exact hfirst'
    · exact hsecond'
  · rcases threeHits.side_eq_or k with hk | hk <;> rw [hk]
    · exact ⟨_, _, exists_asPlayer hping⟩
    · exact ⟨_, _, exists_asPlayer hpong⟩
  · rcases threeHits.side_eq_or k with hk | hk <;> rw [hk]
    · exact hpingBox
    · exact hpongBox
  · obtain ⟨m, hm, hservice⟩ := List.map_eq_singleton_iff.mp hserved
    rw [eq_of_service hservice] at hm
    exact hm
  · rw [(booked_of_opened h).minding.idle i (jobs_of_opened h i)]
    exact not_concerns_free

/-- No message was taken but those for the two players. -/
def mindsTheTwo (g : Rally) (c : Crew signature) : Bool :=
  c.past.all fun e =>
    match e.2.atom with
    | .takeMail a => decide (g.Plays a)
    | _ => true

theorem taken_of_mindsTheTwo (h : g.mindsTheTwo c) {a : ActorRef} (ha : ¬ g.Plays a) :
    c.taken a = [] := by
  refine List.filterMap_eq_nil_iff.mpr fun e he => ?_
  have hatom := List.all_eq_true.mp h e he
  obtain ⟨i, w, x⟩ := e
  cases x with
  | takeMail b =>
    have hb : g.Plays b := of_decide_eq_true hatom
    refine if_neg ?_
    rintro rfl
    exact ha hb
  | _ => rfl

theorem schedule_of_opened {c₀ c : Crew signature} (h₀ : opened = some c₀)
    (hplay : c₀.play staff volleys = some c) : threeHits.Schedule staff c₀ volleys c := by
  have htwo : (opened.bind fun c => c.play staff volleys).map threeHits.mindsTheTwo =
      some true := by decide +kernel
  rw [h₀, Option.bind_some, hplay, Option.map_some, Option.some.injEq] at htwo
  have hnone := jobs_of_opened h₀
  refine ⟨hplay, fun i j hj => ?_, fun i => (booked_of_opened h₀).minding.idle i (hnone i),
    fun i r hr => ?_, fun a ha => ?_⟩
  · rw [hnone i] at hj
    cases hj
  · simp only [volleys, turn, List.mem_append, List.mem_cons, List.mem_replicate] at hr
    grind [Routine.drains]
  · have hend := taken_of_mindsTheTwo htwo ha
    have hprefix := Crew.taken_play hplay a
    rw [hend, List.prefix_nil] at hprefix
    rw [hend, hprefix]

theorem jobs_of_volleys {c₀ c : Crew signature} (h₀ : opened = some c₀)
    (hplay : c₀.play staff volleys = some c) (i : ThreadId) : c.jobs i = none := by
  have hmoves : volleys.all fun m => decide (m.thread = 1 ∨ m.thread = 2) := by decide +kernel
  have htwo : (opened.bind fun c => c.play staff volleys).map (fun c =>
      ((c.jobs 1).isNone, (c.jobs 2).isNone)) = some (true, true) := by decide +kernel
  rw [h₀, Option.bind_some, hplay, Option.map_some, Option.some.injEq, Prod.mk.injEq,
    Option.isNone_iff_eq_none, Option.isNone_iff_eq_none] at htwo
  by_cases hi : i = 1 ∨ i = 2
  · rcases hi with rfl | rfl
    · exact htwo.1
    · exact htwo.2
  · rw [Crew.jobs_play hplay fun m hm => ?_, jobs_of_opened h₀]
    rintro rfl
    exact hi (of_decide_eq_true (List.all_eq_true.mp hmoves m hm))

/-- The first player makes the last hit. -/
theorem ping_ends_rally : ∃ c₀ c, threeHits.Begins staff c₀ ∧
    threeHits.Schedule staff c₀ volleys c ∧ threeHits.Played staff c₀ c 3 ∧
    (c.letters 2).map (·.2) = [⟨some ⟨1⟩, .user (.gameOver ⟨3, "ping"⟩)⟩] := by
  have hrun : (opened.bind fun c => (c.play staff volleys).map fun d =>
      ((threeHits.dispatches c).length, (threeHits.dispatches d).length, (c.letters 2).length)) =
      some (0, 3, 0) := by decide +kernel
  obtain ⟨c₀, h₀, hrun⟩ := Option.bind_eq_some_iff.mp hrun
  obtain ⟨c, hplay, hcounts⟩ := Option.map_eq_some_iff.mp hrun
  simp only [Prod.mk.injEq, List.length_eq_zero_iff] at hcounts
  obtain ⟨hbefore, hafter, hletters⟩ := hcounts
  have hbegins := begins_of_opened h₀
  have hschedule := schedule_of_opened h₀ hplay
  obtain ⟨n, hplayed⟩ := rally_keeps_one_letter staff_civil rfl h₀ hbegins hschedule
  have hn : n = 3 := by
    have hlength := congrArg List.length hplayed.dispatches
    simpa [hbefore, hafter] using hlength.symm
  subst hn
  refine ⟨c₀, c, hbegins, hschedule, hplayed, ?_⟩
  have hbooked := (booked_of_opened h₀).play staff_civil hplay
  have hfree : ∀ i, ¬ threeHits.Concerns (c.midst staff i) := by
    intro i
    rw [hbooked.minding.idle i (jobs_of_volleys h₀ hplay i)]
    exact not_concerns_free
  rcases hplayed.between (sent_of_free hfree) with ⟨hlt, -⟩ | ⟨-, -, hdesk⟩
  · exact absurd hlt (by decide)
  · rw [show threeHits.desk = 2 from rfl, hletters] at hdesk
    exact hdesk

end Rally

end ActorSystem
