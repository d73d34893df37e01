import Mathlib.Data.List.Induction
import ActorSystem.Proofs.Crew.Dealings
import ActorSystem.Proofs.Crew.Mail

/-!
# The logbook of a crew

What the logbook of a crew says is what has happened. What is being done for an actor is done by
the one thread that has the actor, and a message that is closed has been dealt with from the first
access to the last. Nothing is opened for an actor that has stopped.

A part of the world that nobody changes except on behalf of one actor, like the role of this actor,
changes along the accesses in the actor's dossier and nowhere else (`Chain`).

* `Minding.recorded`: what a step means for the logbook.
* `Logged.entered`: an access for one actor changes nothing for the others.
* `Logged.step`: the logbook is right.
* `Booked.chain`: what is an actor's own.
-/

namespace ActorSystem

variable {σ : Signature} {α β : Type} {company : Company σ} {config : Config} {c c' d : Crew σ}

/-! ## Acts under way -/

namespace Act

variable {t u : Act σ α} {vs us : List (Visit σ)} {r : α}

/-- With the accesses `vs` made, whatever others did between them, the rest of the act is `u`. -/
def Toward : Act σ α → List (Visit σ) → Act σ α → Prop
  | t, [], u => u = t
  | t, v :: vs, u =>
    match t with
    | .ask x next => v.atom = x ∧ Toward (next (x.answer v.world)) vs u
    | .done _ => False
termination_by structural _ vs => vs

theorem Toward.snoc {x : Atom σ} {next : x.Answer → Act σ α} (h : t.Toward vs (.ask x next))
    (w : World σ) : t.Toward (vs ++ [⟨w, x⟩]) (next (x.answer w)) := by
  induction vs generalizing t with
  | nil =>
    obtain rfl : Dialogue.ask x next = t := h
    exact ⟨rfl, rfl⟩
  | cons v vs ih =>
    cases t with
    | done a => cases h
    | ask y after =>
      exact ⟨h.1, ih h.2⟩

theorem Toward.came (h : t.Toward vs u) (hu : u.Came us r) : t.Came (vs ++ us) r := by
  induction vs generalizing t with
  | nil =>
    obtain rfl : u = t := h
    exact hu
  | cons v vs ih =>
    cases t with
    | done a => cases h
    | ask y after =>
      obtain ⟨w, x⟩ := v
      obtain ⟨rfl, hrest⟩ := h
      exact ⟨w, vs ++ us, rfl, ih hrest⟩

theorem Toward.all {P : Atom σ → Prop} (h : t.Toward vs u) (ht : t.All P) : u.All P := by
  induction vs generalizing t with
  | nil =>
    obtain rfl : u = t := h
    exact ht
  | cons v vs ih =>
    cases t with
    | done a => cases h
    | ask y after =>
      exact ih h.2 (ht.2 _)

theorem came_bind {t : Act σ α} {f : α → Act σ β} {s : β} (h : (t >>= f).Came vs s) :
    ∃ us ws a, vs = us ++ ws ∧ t.Came us a ∧ (f a).Came ws s := by
  induction t generalizing vs with
  | done a => exact ⟨[], vs, a, rfl, ⟨rfl, rfl⟩, h⟩
  | ask x next ih =>
    obtain ⟨w, rest, rfl, hrest⟩ := h
    obtain ⟨us, ws, a, rfl, hus, hws⟩ := ih _ hrest
    exact ⟨⟨w, x⟩ :: us, ws, a, rfl, ⟨w, us, rfl, hus⟩, hws⟩

theorem Came.all {P : Atom σ → Prop} (h : t.Came vs r) (ht : t.All P) : ∀ v ∈ vs, P v.atom := by
  induction t generalizing vs with
  | done a =>
    obtain ⟨rfl, -⟩ := h
    exact fun v hv => absurd hv List.not_mem_nil
  | ask x next ih =>
    obtain ⟨w, rest, rfl, hrest⟩ := h
    intro v hv
    rcases List.mem_cons.mp hv with rfl | hv
    · exact ht.1
    · exact ih _ hrest (ht.2 _) v hv

theorem deal_deals (hc : company.Civil) (a : ActorRef) (m : Message σ.Value) :
    (deal company a m).All fun x => x.asked ∨ x.tends a :=
  deal_all (fun _ _ _ => (interpret_asked hc _).mono fun _ hx => .inl hx) (fun _ hx => .inr hx) m

/-- What comes to `poisoned` has stopped the actor. -/
theorem sicken_of_came {a : ActorRef} {m : Message σ.Value}
    (h : (deal company a m).Came vs .poisoned) : ∃ v ∈ vs, v.atom = .sicken a := by
  obtain ⟨us, ws, o, rfl, -, hend⟩ := came_bind h
  cases o with
  | poisoned =>
    obtain ⟨w, rest, rfl, -⟩ := hend
    exact ⟨⟨w, .sicken a⟩, by simp, rfl⟩
  | skipped | complete | error => cases hend.2

end Act

/-! ## What an access means for the logbook -/

namespace Logbook

variable {l : Logbook σ} {i : ThreadId} {w : World σ} {ok : Atom σ → Prop} {x : Atom σ}

/-- Thread `i` makes an access in world `w`, and this is the logbook after it. -/
inductive Entry (company : Company σ) (ok : Atom σ → Prop) (l : Logbook σ) (i : ThreadId)
    (w : World σ) : Atom σ → Logbook σ → Prop
  /-- The access has nothing to do with any message. -/
  | aside {x : Atom σ} (free : l.midst i = .free) (allowed : ok x)
    (idle : ∀ a, x = .takeMail a → (w.pool.mailOf a).head? = none) : Entry company ok l i w x l
  | opens {a : ActorRef} {m : Message σ.Value} (free : l.midst i = .free)
    (front : (w.pool.mailOf a).head? = some m) :
    Entry company ok l i w (.takeMail a) (l.opened company i a m)
  | goes {a : ActorRef} {x : Atom σ} {next : x.Answer → Act σ Outcome}
    (midst : l.midst i = .dealing a (.ask x next)) :
    Entry company ok l i w x (l.advanced i a ⟨w, x⟩ (next (x.answer w)))

theorem entry_of_allows (h : (l.midst i).allows ok x) :
    Entry company ok l i w x (l.enter company (i, ⟨w, x⟩)) := by
  cases hm : l.midst i with
  | free =>
    rw [hm] at h
    have haside : (∀ a, x = .takeMail a → (w.pool.mailOf a).head? = none) →
        Entry company ok l i w x l := .aside hm h
    cases x with
    | takeMail a =>
      simp only [enter, hm]
      cases hfront : (w.pool.mailOf a).head? with
      | none =>
        refine haside fun c hc => ?_
        cases hc
        exact hfront
      | some m => exact .opens hm hfront
    | _ =>
      simp only [enter, hm]
      exact haside nofun
  | dealing a rest =>
    rw [hm] at h
    cases rest with
    | done o => cases h
    | ask y next =>
      obtain rfl : x = y := h
      simp only [enter, hm]
      exact .goes hm

theorem midst_enter (v : Visit σ) : (l.enter company (i, v)).midst =
    assign l.midst i ((l.midst i).after company v) := by
  obtain ⟨w, x⟩ := v
  have hsame : l.midst i = .free → assign l.midst i .free = l.midst := by
    intro hm
    rw [← hm, assign_same]
  cases hm : l.midst i with
  | free =>
    cases x with
    | takeMail a =>
      simp only [enter, hm, Midst.after]
      cases (w.pool.mailOf a).head? with
      | none => exact (hsame hm).symm
      | some m => rfl
    | _ =>
      simp only [enter, hm, Midst.after]
      exact (hsame hm).symm
  | dealing a rest =>
    cases rest with
    | done o =>
      simp only [enter, hm, Midst.after]
      rw [← hm, assign_same]
    | ask y next =>
      simp only [enter, hm, Midst.after]
      rfl

end Logbook

/-! ## Every thread of a crew -/

/-- Every thread does what is to be done for the messages that it takes. -/
structure Minding (company : Company σ) (c : Crew σ) : Prop where
  idle : ∀ i, c.jobs i = none → c.midst company i = .free
  busy : ∀ i j, c.jobs i = some j →
    Pursues company (Atom.aside j.routine.drains) (c.midst company i) j.rest

namespace Minding

theorem empty (config : Config) (env : σ.Env) : Minding company (Crew.empty config env) where
  idle _ _ := rfl
  busy i j hj := by cases hj

theorem step (hc : company.Civil) (h : Minding company c) {m : Move σ}
    (hm : c.step company m = some c') : Minding company c' := by
  rcases Crew.step_cases hm with ⟨i, r, -, hi, rfl⟩ | ⟨i, j, o, -, hj, hrest, rfl⟩ |
    ⟨i, j, x, next, -, hj, hrest, -, rfl⟩
  · refine ⟨fun k hk => ?_, fun k l hl => ?_⟩
    · rcases assign_cases hk with ⟨rfl, -⟩ | ⟨-, hjob⟩
      · exact h.idle k hi
      · exact h.idle k hjob
    · rcases assign_cases hl with ⟨rfl, hjob⟩ | ⟨-, hjob⟩
      · cases hjob
        change Pursues company _ (c.midst company k) (r.act company)
        rw [h.idle k hi]
        exact Act.act_pursues hc r
      · exact h.busy k l hjob
  · refine ⟨fun k hk => ?_, fun k l hl => ?_⟩
    · rcases assign_cases hk with ⟨rfl, -⟩ | ⟨-, hjob⟩
      · have hend := h.busy k j hj
        rw [hrest] at hend
        exact hend
      · exact h.idle k hjob
    · rcases assign_cases hl with ⟨rfl, hjob⟩ | ⟨-, hjob⟩
      · cases hjob
      · exact h.busy k l hjob
  · have hrule := h.busy i j hj
    rw [hrest] at hrule
    have hmidst : (c.access i j x next).midst company =
        assign (c.midst company) i ((c.midst company i).after company ⟨c.world, x⟩) := by
      funext k
      rw [Crew.midst, Crew.logbook_snoc rfl, Logbook.midst_enter]
      rfl
    refine ⟨fun k hk => ?_, fun k l hl => ?_⟩
    · rcases assign_cases hk with ⟨-, hjob⟩ | ⟨hki, hjob⟩
      · cases hjob
      · rw [hmidst, assign_of_ne _ _ hki]
        exact h.idle k hjob
    · rcases assign_cases hl with ⟨rfl, hjob⟩ | ⟨hki, hjob⟩
      · cases hjob
        rw [hmidst, assign_self]
        exact hrule.2 c.world
      · rw [hmidst, assign_of_ne _ _ hki]
        exact h.busy k l hjob

end Minding

/-- What a step is to somebody who knows the stages and the logbook. -/
inductive Recorded (config : Config) (company : Company σ) (c : Crew σ) (m : Move σ)
    (c' : Crew σ) : Prop where
  | still (i : ThreadId) (t : Stage σ) (before : (c.stage i).turn = .away) (after : t.turn = .away)
    (stage : c'.stage = assign c.stage i t) (world : c'.world = c.world) (past : c'.past = c.past)
  | made (i : ThreadId) (j : Job σ) (x : Atom σ) (move : m = .go i) (job : c.jobs i = some j)
    (allows : (c.stage i).Allows config.maxActors x)
    (stage : c'.stage = assign c.stage i ((c.stage i).visit ⟨c.world, x⟩))
    (world : c'.world = x.effect c.world) (past : c'.past = c.past ++ [(i, ⟨c.world, x⟩)])
    (entry : Logbook.Entry company (Atom.aside j.routine.drains) (c.logbook company) i c.world x
      (c'.logbook company))

theorem Minding.recorded (h : Minding company c) (ho : Orderly config c) {m : Move σ}
    (hm : c.step company m = some c') : Recorded config company c m c' := by
  rcases Crew.step_cases hm with ⟨i, r, -, hi, rfl⟩ | ⟨i, j, o, -, hj, hrest, rfl⟩ |
    ⟨i, j, x, next, hgo, hj, hrest, -, rfl⟩
  · exact .still i (.start r) (by rw [Crew.stage_of_idle hi]) rfl (Crew.stage_begin company c i r)
      rfl rfl
  · have hobeys := ho.obeys i j hj
    rw [hrest] at hobeys
    have hstage : (c.stage i).turn = .away := by
      rw [Crew.stage_of_job hj, show j.stage = _ from hobeys]
      rfl
    exact .still i {} hstage rfl (Crew.stage_leave c i j o) rfl rfl
  · have hobeys := ho.obeys i j hj
    rw [hrest] at hobeys
    have hstage := Crew.stage_of_job hj
    have hrule := h.busy i j hj
    rw [hrest] at hrule
    refine .made i j x hgo hj (by rw [hstage]; exact hobeys.1) (Crew.stage_access hj x next) rfl
      rfl ?_
    have hlogbook : (c.access i j x next).logbook company =
        (c.logbook company).enter company (i, ⟨c.world, x⟩) := Crew.logbook_snoc rfl
    rw [hlogbook]
    exact Logbook.entry_of_allows hrule.1

/-! ## The logbook is right -/

/-- What a dossier of actor `a` can be: what is closed has been dealt with, and nothing is opened
after a message that has stopped the actor. -/
structure Dossier.Right (company : Company σ) (a : ActorRef) (d : Dossier σ) : Prop where
  came : ∀ e ∈ d.closed, (Act.deal company a e.message).Came e.visits e.outcome
  last : ∀ e ∈ d.closed.dropLast, e.outcome ≠ .poisoned
  going : d.current.isSome → ∀ e ∈ d.closed, e.outcome ≠ .poisoned

namespace Dossier.Right

variable {d : Dossier σ} {a : ActorRef}

theorem empty : ({} : Dossier σ).Right company a where
  came e he := by cases he
  last e he := by cases he
  going _ e he := by cases he

theorem opened (h : d.Right company a) (hgoing : ∀ e ∈ d.closed, e.outcome ≠ .poisoned)
    (m : Message σ.Value) : (d.opened m).Right company a :=
  ⟨h.came, h.last, fun _ => hgoing⟩

theorem record (h : d.Right company a) (v : Visit σ) : (d.record v).Right company a := by
  refine ⟨h.came, h.last, fun hsome => h.going ?_⟩
  simpa [Dossier.record] using hsome

theorem close (h : d.Right company a) {m : Message σ.Value} {vs : List (Visit σ)} {o : Outcome}
    (hd : d.current = some (m, vs)) (ho : (Act.deal company a m).Came vs o) :
    (d.close o).Right company a := by
  have hclosed : (d.close o).closed = d.closed ++ [⟨m, vs, o⟩] := by simp [Dossier.close, hd]
  refine ⟨fun e he => ?_, fun e he => ?_, fun hopen => absurd hopen Bool.false_ne_true⟩
  · rw [hclosed] at he
    rcases List.mem_append.mp he with he | he
    · exact h.came e he
    · rw [List.mem_singleton.mp he]
      exact ho
  · rw [hclosed, List.dropLast_concat] at he
    exact h.going (by rw [hd]; rfl) e he

theorem after (h : d.Right company a) {m : Message σ.Value} {vs : List (Visit σ)} {v : Visit σ}
    {rest : Act σ Outcome} (hd : d.current = some (m, vs))
    (hrest : (Act.deal company a m).Toward (vs ++ [v]) rest) :
    (d.after v rest).Right company a := by
  cases rest with
  | done o =>
    have hrecord : (d.record v).current = some (m, vs ++ [v]) := by simp [Dossier.record, hd]
    have hend : Act.Came (.done o : Act σ Outcome) [] o := ⟨rfl, rfl⟩
    have hcame := hrest.came hend
    rw [List.append_nil] at hcame
    exact (h.record v).close hrecord hcame
  | ask x next => exact h.record v

end Dossier.Right

/-- What the dossier of actor `a` says of the message that is being dealt with, and what the thread
that has the actor is in the midst of. -/
inductive Dossier.Fits (company : Company σ) (a : ActorRef) (d : Dossier σ) : Midst σ → Prop
  | idle (current : d.current = none) : d.Fits company a .free
  | busy {m : Message σ.Value} {vs : List (Visit σ)} {x : Atom σ} {next : x.Answer → Act σ Outcome}
    (current : d.current = some (m, vs))
    (toward : (Act.deal company a m).Toward vs (.ask x next)) :
    d.Fits company a (.dealing a (.ask x next))

namespace Dossier.Fits

variable {d : Dossier σ} {a b : ActorRef} {m : Message σ.Value}

theorem actor {s : Midst σ} (h : d.Fits company a s) (hb : s.actor? = some b) : b = a := by
  cases h with
  | idle current => cases hb
  | busy current toward => exact (Option.some.inj hb).symm

theorem opened (d : Dossier σ) (m : Message σ.Value) :
    (d.opened m).Fits company a (.dealing a (Act.deal company a m)) := by
  obtain ⟨x, next, hask⟩ := Act.deal_asks company a m
  have htoward : (Act.deal company a m).Toward [] (.ask x next) := hask.symm
  rw [hask]
  exact .busy rfl htoward

theorem after {vs : List (Visit σ)} {v : Visit σ} {rest : Act σ Outcome}
    (hd : d.current = some (m, vs)) (hrest : (Act.deal company a m).Toward (vs ++ [v]) rest) :
    (d.after v rest).Fits company a (.having a rest) := by
  cases rest with
  | done o => exact .idle rfl
  | ask x next => exact .busy (by simp [Dossier.after, Dossier.record, hd]) hrest

end Dossier.Fits

/-! ### Accesses that take no message -/

theorem Visit.taken_of_idle {w : World σ} {x : Atom σ}
    (idle : ∀ a, x = .takeMail a → (w.pool.mailOf a).head? = none) (b : ActorRef) :
    (⟨w, x⟩ : Visit σ).taken b = none := by
  cases x with
  | takeMail a =>
    simp only [Visit.taken]
    split
    · rename_i ha
      rw [← ha]
      exact idle a rfl
    · rfl
  | _ => rfl

section

variable {x : Atom σ} {a : ActorRef} (hx : x.asked ∨ x.tends a)

include hx

theorem Visit.taken_of_kind {w : World σ} (b : ActorRef) : (⟨w, x⟩ : Visit σ).taken b = none := by
  cases x with
  | takeMail c => rcases hx with hx | hx <;> cases hx
  | _ => rfl

/-- What is done for an actor does not begin or end the time in which a thread has it. -/
theorem Atom.keeps_of_kind : (∀ b, x ≠ .claim b) ∧ ∀ b o, x ≠ .finish b o := by
  constructor
  · rintro b rfl
    rcases hx with hx | hx <;> cases hx
  · rintro b o rfl
    rcases hx with hx | hx <;> cases hx

end

/-! ### The whole logbook -/

structure Logged (company : Company σ) (c : Crew σ) : Prop where
  /-- Whoever has something to do for an actor has the actor. -/
  held : ∀ i a, (c.midst company i).actor? = some a → (c.stage i).turn.actor? = some a
  under : ∀ i a rest, c.midst company i = .dealing a rest →
    ∃ m vs x next, (c.dossier company a).current = some (m, vs) ∧ rest = .ask x next ∧
      (Act.deal company a m).Toward vs rest
  spare : ∀ a, (∀ i, (c.midst company i).actor? ≠ some a) → (c.dossier company a).current = none
  right : ∀ a, (c.dossier company a).Right company a
  taken : ∀ a, c.taken a = (c.dossier company a).messages
  sickened : ∀ a, ∀ v ∈ (c.dossier company a).visits, v.atom = .sicken a →
    c.world.pool.phaseOf a = some .sick

namespace Logged

theorem empty (config : Config) (env : σ.Env) : Logged company (Crew.empty config env) where
  held i a hi := by cases hi
  under i a rest hi := by cases hi
  spare a _ := rfl
  right a := .empty
  taken a := rfl
  sickened a v hv := by cases hv

section

variable {i : ThreadId} {a : ActorRef}

/-- Nobody else has anything to do for an actor that thread `i` has. -/
theorem alone (h : Logged company c) (hs : Sane config c) (ha : (c.stage i).turn.actor? = some a)
    {k : ThreadId} (hk : (c.midst company k).actor? = some a) : k = i :=
  hs.taken.alone k i a (h.held k a hk) ha

/-- Whoever has something to do for an actor has taken a message for it. -/
theorem current_isSome (h : Logged company c) (hi : (c.midst company i).actor? = some a) :
    (c.dossier company a).current.isSome := by
  cases hm : c.midst company i with
  | free =>
    rw [hm] at hi
    cases hi
  | dealing b rest =>
    rw [hm] at hi
    cases hi
    obtain ⟨m, vs, x, next, hcurrent, -⟩ := h.under i a rest hm
    rw [hcurrent]
    rfl

/-- Whoever has an actor and nothing to do for it has no message open. -/
theorem closed_of_free (h : Logged company c) (hs : Sane config c)
    (ha : (c.stage i).turn.actor? = some a) (free : c.midst company i = .free) (k : ThreadId) :
    (c.midst company k).actor? ≠ some a := by
  intro hk
  rw [h.alone hs ha hk, free] at hk
  cases hk

/-- Nothing has stopped an actor that is being drained. -/
theorem going (h : Logged company c) (ha : c.world.pool.phaseOf a = some .processing) :
    ∀ e ∈ (c.dossier company a).closed, e.outcome ≠ .poisoned := by
  intro e he hpoisoned
  have hcame := (h.right a).came e he
  rw [hpoisoned] at hcame
  obtain ⟨v, hv, hsicken⟩ := Act.sicken_of_came hcame
  have hmem : v ∈ (c.dossier company a).visits :=
    List.mem_append_left _ (List.mem_flatMap.mpr ⟨e, he, hv⟩)
  have hsick := h.sickened a v hmem hsicken
  rw [ha] at hsick
  cases hsick

end

/-- What is done for an actor is of one of these kinds. -/
theorem kind (h : Logged company c) (hc : company.Civil) {i : ThreadId} {a : ActorRef} {x : Atom σ}
    {next : x.Answer → Act σ Outcome} (midst : c.midst company i = .dealing a (.ask x next)) :
    x.asked ∨ x.tends a := by
  obtain ⟨m, vs, y, after, -, -, htoward⟩ := h.under i a _ midst
  exact (htoward.all (Act.deal_deals hc a m)).1

theorem still (h : Logged company c) {i : ThreadId} {t : Stage σ}
    (before : (c.stage i).turn = .away) (after : t.turn = .away)
    (stage : c'.stage = assign c.stage i t) (world : c'.world = c.world)
    (past : c'.past = c.past) : Logged company c' := by
  have hlogbook : c'.logbook company = c.logbook company := Crew.logbook_of_past past
  have hmidst := Crew.midst_of_logbook hlogbook
  have hdossier := Crew.dossier_of_logbook hlogbook
  have hturn := Crew.turn_settled before after stage
  constructor
  · intro k a hk
    rw [hmidst] at hk
    rw [hturn]
    exact h.held k a hk
  · rw [hmidst, hdossier]
    exact h.under
  · rw [hmidst, hdossier]
    exact h.spare
  · rw [hdossier]
    exact h.right
  · intro a
    rw [hdossier, Crew.taken, past]
    exact h.taken a
  · rw [hdossier, world]
    exact h.sickened

section

variable {i : ThreadId} {x : Atom σ} (hs : Sane config c)
variable (allows : (c.stage i).Allows config.maxActors x)
variable (stage : c'.stage = assign c.stage i ((c.stage i).visit ⟨c.world, x⟩))
variable (world : c'.world = x.effect c.world) (past : c'.past = c.past ++ [(i, ⟨c.world, x⟩)])

include hs allows world in
/-- An actor that has stopped stays stopped. -/
theorem sickened_visited (h : Logged company c) {a : ActorRef}
    (hold : ∀ v ∈ (c'.dossier company a).visits,
      v ∈ (c.dossier company a).visits ∨ v = ⟨c.world, x⟩) :
    ∀ v ∈ (c'.dossier company a).visits, v.atom = .sicken a →
      c'.world.pool.phaseOf a = some .sick := by
  intro v hv hsicken
  rw [world]
  rcases hold v hv with hmem | rfl
  · exact hs.taken.sick_visited allows (h.sickened a v hmem hsicken)
  · obtain rfl : x = .sicken a := hsicken
    exact (hs.taken.sickened allows).2

include stage in
/-- A thread keeps the actor that it has, unless it takes another one or lets this one go. -/
theorem held_visited (h : Logged company c) {k : ThreadId} {a : ActorRef}
    (hk : (c.midst company k).actor? = some a)
    (hkeeps : k = i → (∀ b, x ≠ .claim b) ∧ ∀ b o, x ≠ .finish b o) :
    (c'.stage k).turn.actor? = some a := by
  rw [stage]
  by_cases hki : k = i
  · subst hki
    obtain ⟨hclaim, hfinish⟩ := hkeeps rfl
    rw [assign_self, Stage.actor?_visit_iff]
    exact .inr ⟨h.held k a hk, fun b hb => absurd hb (hclaim b), hfinish⟩
  · rw [assign_of_ne _ _ hki]
    exact h.held k a hk

include hs allows stage world past in
theorem aside (h : Logged company c) (logbook : c'.logbook company = c.logbook company)
    (free : c.midst company i = .free)
    (idle : ∀ a, x = .takeMail a → (c.world.pool.mailOf a).head? = none) : Logged company c' := by
  have hmidst := Crew.midst_of_logbook logbook
  have hdossier := Crew.dossier_of_logbook logbook
  constructor
  · intro k a hk
    rw [hmidst] at hk
    refine h.held_visited stage hk ?_
    rintro rfl
    rw [free] at hk
    cases hk
  · rw [hmidst, hdossier]
    exact h.under
  · rw [hmidst, hdossier]
    exact h.spare
  · rw [hdossier]
    exact h.right
  · intro a
    rw [hdossier, Crew.taken_snoc past, Visit.taken_of_idle idle, h.taken]
    simp
  · intro a
    refine h.sickened_visited hs allows world fun v hv => .inl ?_
    rwa [hdossier] at hv

include hs allows stage world past in
/-- Thread `i` makes an access for actor `a`, which nobody else has: all else is as it was. -/
theorem entered (h : Logged company c) {a : ActorRef} {s : Midst σ} {d : Dossier σ}
    (hactor : (c.stage i).turn.actor? = some a)
    (midst : c'.midst company = assign (c.midst company) i s)
    (dossier : c'.dossier company = assign (c.dossier company) a d)
    (keeps : (∀ b, x ≠ .claim b) ∧ ∀ b o, x ≠ .finish b o) (fits : d.Fits company a s)
    (right : d.Right company a)
    (messages : (c.dossier company a).messages ++ ((⟨c.world, x⟩ : Visit σ).taken a).toList =
      d.messages)
    (others : ∀ b, b ≠ a → (⟨c.world, x⟩ : Visit σ).taken b = none)
    (visits : ∀ v ∈ d.visits, v ∈ (c.dossier company a).visits ∨ v = ⟨c.world, x⟩) :
    Logged company c' := by
  have hothers : ∀ b, b ≠ a → c'.dossier company b = c.dossier company b := by
    intro b hb
    rw [dossier, assign_of_ne _ _ hb]
  -- of thread `i` and of actor `a` the hypotheses tell, of all others what held before
  constructor
  · intro k b hk
    by_cases hki : k = i
    · rw [hki, midst, assign_self] at hk
      rw [fits.actor hk, hki, stage, assign_self, Stage.actor?_visit_iff]
      exact .inr ⟨hactor, fun b hb => absurd hb (keeps.1 b), keeps.2⟩
    · rw [midst, assign_of_ne _ _ hki] at hk
      exact h.held_visited stage hk fun hki' => absurd hki' hki
  · intro k b rest hk
    by_cases hki : k = i
    · rw [hki, midst, assign_self] at hk
      rw [hk] at fits
      cases fits with
      | busy current toward =>
        exact ⟨_, _, _, _, by rw [dossier, assign_self, current], rfl, toward⟩
    · rw [midst, assign_of_ne _ _ hki] at hk
      have hba : b ≠ a := by
        rintro rfl
        exact hki (h.alone hs hactor (by rw [hk]; rfl))
      rw [hothers b hba]
      exact h.under k b rest hk
  · intro b hb
    by_cases hba : b = a
    · have hi := hb i
      rw [midst, assign_self] at hi
      rw [hba, dossier, assign_self]
      cases fits with
      | idle current => exact current
      | busy current toward => exact absurd (congrArg some hba.symm) hi
    · rw [hothers b hba]
      refine h.spare b fun k hk => ?_
      by_cases hki : k = i
      · rw [hki] at hk
        exact hba (Option.some.inj ((h.held i b hk).symm.trans hactor))
      · exact hb k (by rwa [midst, assign_of_ne _ _ hki])
  · intro b
    by_cases hba : b = a
    · rw [hba, dossier, assign_self]
      exact right
    · rw [hothers b hba]
      exact h.right b
  · intro b
    rw [Crew.taken_snoc past, h.taken]
    by_cases hba : b = a
    · rw [hba, dossier, assign_self, messages]
    · rw [hothers b hba, others b hba]
      exact List.append_nil _
  · intro b
    refine h.sickened_visited hs allows world fun v hv => ?_
    by_cases hba : b = a
    · rw [hba] at hv ⊢
      rw [dossier, assign_self] at hv
      exact visits v hv
    · rw [hothers b hba] at hv
      exact .inl hv

include hs allows stage world past in
theorem opens (h : Logged company c) {a : ActorRef} {m : Message σ.Value} (take : x = .takeMail a)
    (logbook : c'.logbook company = (c.logbook company).opened company i a m)
    (free : c.midst company i = .free) (front : (c.world.pool.mailOf a).head? = some m) :
    Logged company c' := by
  subst take
  obtain ⟨size, n, hturn, -⟩ := allows.turn
  have hactor : (c.stage i).turn.actor? = some a := by rw [hturn]; rfl
  have hphase := hs.taken.phase i a hactor
  rw [hturn] at hphase
  have hspare := h.spare a (h.closed_of_free hs hactor free)
  refine h.entered hs allows stage world past hactor (Crew.midst_of_opened logbook)
    (Crew.dossier_of_opened logbook) ⟨nofun, nofun⟩ (.opened _ m)
    ((h.right a).opened (h.going hphase) m) ?_ (fun b hb => if_neg (Ne.symm hb)) fun v hv => ?_
  · rw [Dossier.messages_opened hspare]
    simp [Visit.taken, front]
  · rw [Dossier.visits_opened hspare] at hv
    exact .inl hv

include hs allows stage world past in
theorem goes (h : Logged company c) (hc : company.Civil) {a : ActorRef}
    {next : x.Answer → Act σ Outcome} (midst : c.midst company i = .dealing a (.ask x next))
    (logbook : c'.logbook company =
      (c.logbook company).advanced i a ⟨c.world, x⟩ (next (x.answer c.world))) :
    Logged company c' := by
  have hactor := h.held i a (by rw [midst]; rfl)
  have hkind := h.kind hc midst
  obtain ⟨m, vs, y, after, hcurrent, -, htoward⟩ := h.under i a _ midst
  have hgone := htoward.snoc c.world
  refine h.entered hs allows stage world past hactor (Crew.midst_of_advanced logbook)
    (Crew.dossier_of_advanced logbook) (Atom.keeps_of_kind hkind) (.after hcurrent hgone)
    ((h.right a).after hcurrent hgone) ?_ (fun b _ => Visit.taken_of_kind hkind b) fun v hv => ?_
  · rw [Dossier.messages_after, Visit.taken_of_kind hkind]
    exact List.append_nil _
  · rw [Dossier.visits_after (by rw [hcurrent]; rfl)] at hv
    simpa using hv

end

theorem step (h : Logged company c) (hc : company.Civil) (hs : Sane config c) {m : Move σ}
    (hm : Recorded config company c m c') : Logged company c' := by
  cases hm with
  | still i t before after stage world past => exact h.still before after stage world past
  | made i j x move job allows stage world past entry =>
    generalize hl : c'.logbook company = l' at entry
    cases entry with
    | aside free allowed idle => exact h.aside hs allows stage world past hl free idle
    | opens free front => exact h.opens hs allows stage world past rfl hl free front
    | goes midst => exact h.goes hs allows stage world past hc midst hl

end Logged

/-! ## Crews from the beginning -/

/-- What holds of every crew that began with an empty pool, and of its logbook. -/
structure Booked (config : Config) (company : Company σ) (c : Crew σ) : Prop where
  sane : Sane config c
  minding : Minding company c
  logged : Logged company c

namespace Booked

theorem empty (config : Config) (env : σ.Env) : Booked config company (Crew.empty config env) :=
  ⟨.empty config env, .empty config env, .empty config env⟩

theorem recorded (h : Booked config company c) {m : Move σ} (hm : c.step company m = some c') :
    Recorded config company c m c' :=
  h.minding.recorded h.sane.orderly hm

theorem step (hc : company.Civil) (h : Booked config company c) {m : Move σ}
    (hm : c.step company m = some c') : Booked config company c' :=
  ⟨h.sane.step hc hm, h.minding.step hc hm, h.logged.step hc h.sane (h.recorded hm)⟩

theorem play (hc : company.Civil) (h : Booked config company c) {ms : List (Move σ)}
    (hplay : c.play company ms = some c') : Booked config company c' :=
  Moves.play_induction (fun _ _ _ hk hm => hk.step hc hm) h hplay

end Booked

/-! ## What is an actor's own -/

/-- A part of the world was the same from `w` up to the first of these accesses, after each of them
up to the next, and after the last of them up to `w'`. -/
def Chain (f : World σ → β) : World σ → List (Visit σ) → World σ → Prop
  | w, [], w' => f w' = f w
  | w, v :: vs, w' => f v.world = f w ∧ Chain f (v.atom.effect v.world) vs w'

namespace Chain

variable {f : World σ → β} {w w' u : World σ} {vs us : List (Visit σ)}

theorem append : Chain f w (vs ++ us) w' ↔ ∃ u, Chain f w vs u ∧ Chain f u us w' := by
  induction vs generalizing w with
  | nil =>
    refine ⟨fun h => ⟨w, rfl, h⟩, ?_⟩
    rintro ⟨u, hu, h⟩
    cases us with
    | nil => exact Eq.trans h hu
    | cons v us => exact ⟨h.1.trans hu, h.2⟩
  | cons v vs ih =>
    constructor
    · rintro ⟨hv, h⟩
      obtain ⟨u, hu, h⟩ := ih.mp h
      exact ⟨u, ⟨hv, hu⟩, h⟩
    · rintro ⟨u, ⟨hv, hu⟩, h⟩
      exact ⟨hv, ih.mpr ⟨u, hu, h⟩⟩

theorem onward (h : Chain f w vs u) (hu : f w' = f u) : Chain f w vs w' := by
  induction vs generalizing w with
  | nil => exact hu.trans h
  | cons v vs ih => exact ⟨h.1, ih h.2⟩

theorem snoc {v : Visit σ} (h : Chain f w vs v.world) :
    Chain f w (vs ++ [v]) (v.atom.effect v.world) :=
  append.mpr ⟨v.world, h, rfl, rfl⟩

/-- What holds of a part at first, and goes on to hold with every dealing, holds of it at the
end. -/
theorem induction {I : List (Dealing σ) → β → Prop} {es : List (Dealing σ)}
    (h : Chain f w (es.flatMap (·.visits)) w') (hnil : I [] (f w))
    (hsnoc : ∀ before e after u u', es = before ++ e :: after → I before (f u) →
      Chain f u e.visits u' → I (before ++ [e]) (f u')) : I es (f w') := by
  induction es using List.reverseRecOn generalizing w' with
  | nil =>
    rw [show f w' = f w from h]
    exact hnil
  | append_singleton es e ih =>
    rw [List.flatMap_append, List.flatMap_singleton, append] at h
    obtain ⟨u, hu, he⟩ := h
    refine hsnoc es e [] u w' rfl (ih hu ?_) he
    rintro before e' after v v' rfl
    exact hsnoc before e' (after ++ [e]) v v' (by simp)

end Chain

/-- In this run nobody but those who have something to do for actor `a` changes this part of the
world. -/
def Crew.Owns (company : Company σ) (a : ActorRef) (f : World σ → β) (c : Crew σ)
    (ms : List (Move σ)) : Prop :=
  ∀ (k : Nat) (m : Move σ) (d d' : Crew σ), ms[k]? = some m →
    c.play company (ms.take k) = some d → d.step company m = some d' →
      f d'.world = f d.world ∨ ∃ i, m = .go i ∧ (d.midst company i).actor? = some a

/-- What a move leaves in the dossier of actor `a`: nothing, for the move made no access or one that
was for others, or the access that it made. -/
inductive Crew.Noted (company : Company σ) (c c' : Crew σ) (m : Move σ) (a : ActorRef) : Prop
  | idle (visits : (c'.dossier company a).visits = (c.dossier company a).visits)
      (world : c'.world = c.world) (past : c'.past = c.past)
  | elsewhere (i : ℕ) (v : Visit σ) (move : m = .go i)
      (actor : (c.midst company i).actor? ≠ some a) (atom : ∀ n, v.atom ≠ .dispatch a n)
      (past : c'.past = c.past ++ [(i, v)])
      (visits : (c'.dossier company a).visits = (c.dossier company a).visits)
  | visit (i : ℕ) (v : Visit σ) (world : v.world = c.world)
      (effect : c'.world = v.atom.effect v.world) (past : c'.past = c.past ++ [(i, v)])
      (visits : (c'.dossier company a).visits = (c.dossier company a).visits ++ [v])

namespace Booked

variable {a : ActorRef} {m : Move σ} {ms : List (Move σ)} {f : World σ → β}

/-- What is done for actor `a` is entered into its dossier, and nothing else is. -/
theorem noted (hc : company.Civil) (h : Booked config company c) (a : ActorRef)
    (hm : c.step company m = some c') : c.Noted company c' m a := by
  cases h.recorded hm with
  | still i t before after stage world past =>
    have hdossier : c'.dossier company = c.dossier company :=
      Crew.dossier_of_logbook (Crew.logbook_of_past past)
    exact .idle (by rw [hdossier]) world past
  | made i j x move job allows stage world past entry =>
    -- whoever is not dealing with a message of the actor leaves its dossier alone
    have helse : (c.midst company i).actor? ≠ some a → (∀ n, x ≠ .dispatch a n) →
        (c'.dossier company a).visits = (c.dossier company a).visits → c.Noted company c' m a :=
      fun hother hx hsame => .elsewhere i ⟨c.world, x⟩ move hother hx past hsame
    have hfree : c.midst company i = .free → (c.midst company i).actor? ≠ some a := by
      intro hfree
      rw [hfree]
      nofun
    generalize hl : c'.logbook company = l' at entry
    cases entry with
    | aside free allowed idle =>
      refine helse (hfree free) (Atom.ne_dispatch_of_aside allowed a) ?_
      rw [Crew.dossier, hl, Crew.dossier]
    | @opens b m free front =>
      refine helse (hfree free) (fun n => nofun) ?_
      obtain ⟨size, n, hturn, -⟩ := allows.turn
      have hactor : (c.stage i).turn.actor? = some b := by rw [hturn]; rfl
      have hspare := h.logged.spare b (h.logged.closed_of_free h.sane hactor free)
      rw [Crew.dossier, hl]
      change (assign (c.dossier company) b ((c.dossier company b).opened m) a).visits = _
      by_cases hab : a = b
      · rw [hab, assign_self, Dossier.visits_opened hspare]
      · rw [assign_of_ne _ _ hab]
    | @goes b _ next midst =>
      have hb : (c.midst company i).actor? = some b := by
        rw [Crew.midst, midst]
        rfl
      have hdossier : c'.dossier company a = assign (c.dossier company) b
          ((c.dossier company b).after ⟨c.world, x⟩ (next (x.answer c.world))) a := by
        rw [Crew.dossier, hl]
        rfl
      by_cases hab : a = b
      · refine .visit i ⟨c.world, x⟩ rfl world past ?_
        rw [hdossier, hab, assign_self, Dossier.visits_after (h.logged.current_isSome hb)]
      · refine helse ?_ (fun n => ?_) (by rw [hdossier, assign_of_ne _ _ hab])
        · rw [hb]
          exact fun hba => hab (Option.some.inj hba).symm
        · rintro rfl
          rcases h.logged.kind hc midst with hx | hx
          · cases hx
          · exact hab (of_decide_eq_true hx)

/-- What is an actor's own changes along the accesses made for this actor. -/
theorem chain (hc : company.Civil) (h : Booked config company c)
    (hnew : (c.dossier company a).visits = []) (hown : c.Owns company a f ms)
    (hplay : c.play company ms = some d) :
    Chain f c.world (d.dossier company a).visits d.world := by
  refine Moves.play_along (P := fun d => Chain f c.world (d.dossier company a).visits d.world)
    (fun k m d d' hm hd hstep hchain => ?_) (by rw [hnew]; rfl) hplay
  cases (h.play hc hd).noted hc a hstep with
  | idle visits world =>
    rw [visits]
    exact hchain.onward (by rw [world])
  | elsewhere i v move actor atom past visits =>
    rw [visits]
    refine hchain.onward ?_
    rcases hown k m d d' hm hd hstep with hsame | ⟨i', hi, hactor⟩
    · exact hsame
    · rw [move] at hi
      cases hi
      exact absurd hactor actor
  | visit i v world effect past visits =>
    rw [visits, effect]
    rw [← world] at hchain
    exact hchain.snoc

end Booked

end ActorSystem
