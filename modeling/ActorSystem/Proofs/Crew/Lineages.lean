import ActorSystem.Proofs.Crew.Answers

/-!
# What becomes of an actor

What an actor is can be told from the messages that it has been given and from what the post office
said to its requests for another ID. The role is one of a `Lineage`: each message makes another one
of it, as far as it is for the role.

* `Lineage.self_of_chain`: what an actor has become.
* `Booked.answered_at`: who answers a message, and under which name.
* `Booked.closes_role`: every message can be dealt with to the end.
* `Booked.visits_sublist`, `Crew.boxes_stay`: the order of things.
-/

namespace ActorSystem

variable {σ : Signature} {company : Company σ} {a : ActorRef}

/-- The name of an actor called `name`, after all this. -/
def nameAfter (name : String) (es : List (Dealing σ)) : String :=
  es.foldl (fun name e => e.newName?.getD name) name

/-- The ID of an actor with the ID `id`, after all this. -/
def idAfter (id : Option ActorId) (es : List (Dealing σ)) : Option ActorId :=
  es.foldl (fun id e => e.newId?.or id) id

/-- Roles that become one another, message by message. -/
structure Lineage (company : Company σ) (S : Type) where
  role : S → σ.Role
  next : S → Message σ.Value → S
  control : ∀ s m, m.isControl → next s m = s
  user : ∀ s ctx m vs ending, m.isControl = false →
    (Act.interpret company (company.behaviour.handle (role s) ctx m)).Came vs ending →
      ending.role = role (next s m)

namespace Lineage

variable {S : Type} {s : S} {name : String} {id : Option ActorId} {u u' : World σ}

/-- Which one it is after these messages. -/
def after (l : Lineage company S) (s : S) (es : List (Dealing σ)) : S :=
  (es.map (·.message)).foldl l.next s

theorem self_step (l : Lineage company S) (hc : company.Civil) {e : Dealing σ}
    (hcame : (Act.deal company a e.message).Came e.visits e.outcome) (ho : e.outcome ≠ .poisoned)
    (hchain : Chain (·.pool.selfOf a) u e.visits u')
    (hself : u.pool.selfOf a = some (l.role s, name, id)) :
    u'.pool.selfOf a =
      some (l.role (l.next s e.message), e.newName?.getD name, e.newId?.or id) := by
  cases hm : e.message.isControl with
  | true =>
    rw [l.control s _ hm]
    exact Dealing.obeyed hcame hm ho hchain hself
  | false =>
    obtain ⟨w, us, ending, w', tail, -, hus, -, hend⟩ := Dealing.answered hc hcame hm hchain hself
    rw [hend ho, l.user s _ _ us ending hm hus]
    obtain ⟨⟨source, body⟩, vs, o⟩ := e
    cases body with
    | control c => cases hm
    | user value => rfl

/-- What an actor has become. -/
theorem self_of_chain (l : Lineage company S) (hc : company.Civil) {es : List (Dealing σ)}
    (hcame : ∀ e ∈ es, (Act.deal company a e.message).Came e.visits e.outcome)
    (hgoing : ∀ e ∈ es, e.outcome ≠ .poisoned)
    (hchain : Chain (·.pool.selfOf a) u (es.flatMap (·.visits)) u')
    (hself : u.pool.selfOf a = some (l.role s, name, id)) :
    u'.pool.selfOf a = some (l.role (l.after s es), nameAfter name es, idAfter id es) := by
  induction es generalizing u s name id with
  | nil => exact Eq.trans hchain hself
  | cons e es ih =>
    rw [List.flatMap_cons] at hchain
    obtain ⟨w, he, hes⟩ := Chain.append.mp hchain
    have hstep := l.self_step hc (hcame e List.mem_cons_self) (hgoing e List.mem_cons_self) he hself
    exact ih (fun e' he' => hcame e' (List.mem_cons_of_mem e he'))
      (fun e' he' => hgoing e' (List.mem_cons_of_mem e he')) hes hstep

end Lineage

/-! ## In a crew -/

variable {config : Config} {c d : Crew σ} {ms : List (Move σ)}

/-- The letters that were put into mailbox `b` on the way. -/
def Dealing.letters (e : Dealing σ) (b : BoxRef) : List (Message σ.Value) :=
  e.visits.filterMap (·.letter b)

theorem Dossier.visits_sublist_of_closed {x : Dossier σ} {before after : List (Dealing σ)}
    {e : Dealing σ} (hclosed : x.closed = before ++ e :: after) : e.visits.Sublist x.visits := by
  rw [Dossier.visits, hclosed, List.flatMap_append, List.flatMap_cons, List.append_assoc,
    List.append_assoc]
  exact (List.sublist_append_left _ _).trans (List.sublist_append_right _ _)

theorem Dossier.Right.going_before {x : Dossier σ} (h : x.Right company a) {before after e}
    (hclosed : x.closed = before ++ e :: after) : ∀ e' ∈ before, e'.outcome ≠ .poisoned := by
  intro e' he'
  refine h.last e' ?_
  rw [hclosed, List.dropLast_append_of_ne_nil (List.cons_ne_nil e after)]
  exact List.mem_append_left _ he'

/-- What is being dealt with is on its way. -/
theorem Logged.toward (h : Logged company c) {m : Message σ.Value} {vs : List (Visit σ)}
    (hcurrent : (c.dossier company a).current = some (m, vs)) :
    ∃ rest, (Act.deal company a m).Toward vs rest := by
  obtain ⟨i, hi⟩ : ∃ i, (c.midst company i).actor? = some a := by
    by_contra hnone
    rw [h.spare a fun i hi => hnone ⟨i, hi⟩] at hcurrent
    cases hcurrent
  cases hm : c.midst company i with
  | free =>
    rw [hm] at hi
    cases hi
  | dealing b rest =>
    rw [hm] at hi
    cases hi
    obtain ⟨m', vs', x, next, hcurrent', -, htoward⟩ := h.under i a rest hm
    rw [hcurrent] at hcurrent'
    cases hcurrent'
    exact ⟨rest, htoward⟩

/-- A message that is being dealt with has come to the role, unless nothing has been done for it yet
or it is not for the role. -/
theorem Logged.dispatched_current (hc : company.Civil) (h : Logged company c)
    {m : Message σ.Value} {vs : List (Visit σ)}
    (hcurrent : (c.dossier company a).current = some (m, vs)) :
    vs.filterMap (·.dispatched a) = if m.isControl ∨ vs = [] then [] else [m] := by
  obtain ⟨rest, htoward⟩ := h.toward hcurrent
  -- what will have been dispatched in the end
  have hwhole := Act.dispatched_of_came hc (htoward.came (Act.came_run rest c.world))
  rw [List.filterMap_append] at hwhole
  cases hm : m.isControl with
  | true =>
    rw [hm, if_pos rfl] at hwhole
    simpa using (List.append_eq_nil_iff.mp hwhole).1
  | false =>
    cases vs with
    | nil => rfl
    | cons v vs =>
      obtain ⟨w, x⟩ := v
      rw [Act.deal_user company a hm] at htoward
      obtain ⟨rfl, -⟩ := htoward
      have hhead : Visit.dispatched ⟨w, .dispatch a m⟩ a = some m := if_pos rfl
      rw [hm, List.filterMap_cons, hhead] at hwhole
      have htail : vs.filterMap (·.dispatched a) = [] :=
        (List.append_eq_nil_iff.mp (List.cons.inj hwhole).2).1
      rw [List.filterMap_cons, hhead, htail]
      simp

/-- What stops an actor is the last that is done for it. -/
theorem Logged.ended (h : Logged company c) {before after : List (Dealing σ)} {e : Dealing σ}
    (hclosed : (c.dossier company a).closed = before ++ e :: after) (ho : e.outcome = .poisoned) :
    after = [] ∧ (c.dossier company a).current = none ∧ c.world.pool.phaseOf a = some .sick := by
  have hright := h.right a
  have hmem : e ∈ (c.dossier company a).closed := by simp [hclosed]
  refine ⟨?_, ?_, ?_⟩
  · by_contra hafter
    refine hright.last e ?_ ho
    rw [hclosed, List.dropLast_append_cons, List.dropLast_cons_of_ne_nil hafter]
    simp
  · rw [← Option.not_isSome_iff_eq_none]
    exact fun hsome => hright.going hsome e hmem ho
  · have hcame := hright.came e hmem
    rw [ho] at hcame
    obtain ⟨v, hv, hsicken⟩ := Act.sicken_of_came hcame
    have hvisits : v ∈ (c.dossier company a).visits :=
      List.mem_append_left _ (List.mem_flatMap.mpr ⟨e, hmem, hv⟩)
    exact h.sickened a v hvisits hsicken

theorem Logged.visits_of_taken (h : Logged company c) (hnew : c.taken a = []) :
    (c.dossier company a).visits = [] := by
  rw [h.taken] at hnew
  simp only [Dossier.messages, List.append_eq_nil_iff, List.map_eq_nil_iff] at hnew
  rw [Dossier.visits, hnew.1, hnew.2]
  rfl

namespace Crew

/-- No mailbox vanishes. -/
theorem boxes_stay (hc : company.Civil) {env : σ.Env}
    (hplay : (Crew.empty config env).play company ms = some d) :
    (d.past.map (·.2)).Pairwise fun u v => ∀ b, (u.world.pool.office.box? b).isSome →
      (v.world.pool.office.box? b).isSome := by
  refine ((Sane.empty config env).induction hc (P := fun c =>
    (∀ v ∈ c.past.map (·.2), ∀ b, (v.world.pool.office.box? b).isSome →
      (c.world.pool.office.box? b).isSome) ∧
    (c.past.map (·.2)).Pairwise fun u v => ∀ b, (u.world.pool.office.box? b).isSome →
      (v.world.pool.office.box? b).isSome) ?_ ⟨?_, .nil⟩ hplay).2.2
  · rintro c c' - hchange ⟨hnow, hpast⟩
    rcases hchange.between_or_visited with ⟨i, t, -, -, -, hw, hp, -⟩ | ⟨i, x, hx, -, hw, hp, -⟩
    · rw [hw, hp]
      exact ⟨hnow, hpast⟩
    · rw [hw, hp, List.map_append]
      refine ⟨fun v hv b hb => ?_,
        List.pairwise_append.mpr ⟨hpast, List.pairwise_singleton _ _, ?_⟩⟩
      · refine Atom.box?_isSome_effect (Orderly.ne_alter hx) ?_
        rcases List.mem_append.mp hv with hv | hv
        · exact hnow v hv b hb
        · rw [List.mem_singleton.mp hv] at hb
          exact hb
      · intro v hv u hu
        rw [List.mem_singleton.mp hu]
        exact hnow v hv
  · intro v hv
    cases hv

end Crew

namespace Booked

variable {S : Type} {s : S} {name : String} {id : Option ActorId}

/-- What holds at first and no move breaks, whatever it leaves in the dossier of `a`, holds on. -/
theorem along (hc : company.Civil) (h : Booked config company c) {P : Crew σ → Prop}
    (a : ActorRef) (hstep : ∀ c c' m, P c → c.Noted company c' m a → P c') (hp : P c)
    (hplay : c.play company ms = some d) : P d := by
  refine (Moves.play_induction (P := fun d => Booked config company d ∧ P d) ?_ ⟨h, hp⟩ hplay).2
  rintro c c' m ⟨hbooked, hp⟩ hm
  exact ⟨hbooked.step hc hm, hstep c c' m hp (hbooked.noted hc a hm)⟩

theorem visits_sublist (hc : company.Civil) {env : σ.Env}
    (hplay : (Crew.empty config env).play company ms = some d) (a : ActorRef) :
    (d.dossier company a).visits.Sublist (d.past.map (·.2)) := by
  refine along (P := fun d => (d.dossier company a).visits.Sublist (d.past.map (·.2))) hc
    (.empty config env) a (fun c c' m hsub hnoted => ?_) .slnil hplay
  cases hnoted with
  | idle visits _ past => rwa [visits, past]
  | elsewhere i v _ _ _ past visits =>
    rw [visits, past, List.map_append]
    exact hsub.trans (List.sublist_append_left _ _)
  | visit i v _ _ past visits =>
    rw [visits, past, List.map_append]
    exact hsub.append_right _

/-- Whoever hands a message to the role of an actor is dealing with it. -/
theorem dispatched_visits (hc : company.Civil) {env : σ.Env}
    (hplay : (Crew.empty config env).play company ms = some d) (a : ActorRef) :
    d.dispatched a = (d.dossier company a).visits.filterMap (·.dispatched a) := by
  refine along (P := fun d => d.dispatched a =
    (d.dossier company a).visits.filterMap (·.dispatched a)) hc (.empty config env)
    a (fun c c' m hsame hnoted => ?_) rfl hplay
  cases hnoted with
  | idle visits _ past => rw [visits, ← hsame, Crew.dispatched, past, Crew.dispatched]
  | elsewhere i v _ _ atom past visits =>
    have hnone : v.dispatched a = none := by
      obtain ⟨w, x⟩ := v
      cases x with
      | dispatch b n => exact if_neg fun hab => atom n (by rw [hab])
      | _ => rfl
    rw [visits, ← hsame, Crew.dispatched_snoc past, hnone]
    exact List.append_nil _
  | visit i v _ _ past visits =>
    rw [visits, List.filterMap_append, ← hsame, Crew.dispatched_snoc past]
    cases hv : v.dispatched a <;> simp [hv]

/-- Every message for the role that was dealt with has come to it. -/
theorem dispatched_eq (hc : company.Civil) {env : σ.Env}
    (hplay : (Crew.empty config env).play company ms = some d) (a : ActorRef) :
    d.dispatched a = ((d.dossier company a).closed.map (·.message)).filter (!·.isControl) ++
      (d.dossier company a).current.toList.flatMap (·.2.filterMap (·.dispatched a)) := by
  have hright := ((Booked.empty config env).play hc hplay).logged.right a
  have hclosed : ∀ e ∈ (d.dossier company a).closed, e.visits.filterMap (·.dispatched a) =
      if e.message.isControl then [] else [e.message] :=
    fun e he => Act.dispatched_of_came hc (hright.came e he)
  rw [dispatched_visits hc hplay a, Dossier.visits, List.filterMap_append, List.filterMap_flatMap,
    List.filterMap_flatMap, List.flatMap_congr hclosed, List.filter_map]
  congr 1
  induction (d.dossier company a).closed with
  | nil => rfl
  | cons e es ih => cases he : e.message.isControl <;> simp [he, ih]

/-- The letters that come of an actor's messages arrive in the order of the messages. -/
theorem letters_sublist (hc : company.Civil) {env : σ.Env}
    (hplay : (Crew.empty config env).play company ms = some d) (a : ActorRef) (b : BoxRef) :
    ((d.dossier company a).closed.flatMap (·.letters b)).Sublist ((d.letters b).map (·.2)) := by
  have hletters : (d.letters b).map (·.2) = (d.past.map (·.2)).filterMap (·.letter b) := by
    simp [Crew.letters, List.map_filterMap, List.filterMap_map, Function.comp_def]
  have hclosed : (d.dossier company a).closed.flatMap (·.letters b) =
      ((d.dossier company a).closed.flatMap (·.visits)).filterMap (·.letter b) := by
    rw [List.filterMap_flatMap]
    rfl
  rw [hletters, hclosed]
  exact ((List.sublist_append_left _ _).trans (visits_sublist hc hplay a)).filterMap _

section

variable (l : Lineage company S) (hc : company.Civil) (h : Booked config company c)
variable (hnew : c.taken a = []) (hself : c.world.pool.selfOf a = some (l.role s, name, id))
variable (hplay : c.play company ms = some d)

include hc h hnew hself hplay

/-- What an actor has become when it turns to its next message. -/
theorem self_at {es : List (Dealing σ)} {vs : List (Visit σ)}
    (hes : ∀ e ∈ es, e ∈ (d.dossier company a).closed) (hgoing : ∀ e ∈ es, e.outcome ≠ .poisoned)
    (hvisits : (d.dossier company a).visits = es.flatMap (·.visits) ++ vs) :
    ∃ u, u.pool.selfOf a = some (l.role (l.after s es), nameAfter name es, idAfter id es) ∧
      Chain (·.pool.selfOf a) u vs d.world := by
  have hsome : (c.world.pool.selfOf a).isSome := by
    rw [hself]
    rfl
  have hchain := h.chain hc (h.logged.visits_of_taken hnew) (h.owns_self hc hsome) hplay
  rw [hvisits] at hchain
  obtain ⟨u, hbefore, hafter⟩ := Chain.append.mp hchain
  have hcame := fun e he => ((h.play hc hplay).logged.right a).came e (hes e he)
  exact ⟨u, l.self_of_chain hc hcame hgoing hbefore hself, hafter⟩

/-- The role that the actor has become answers the next message. -/
theorem answered_at {before after : List (Dealing σ)} {e : Dealing σ}
    (hclosed : (d.dossier company a).closed = before ++ e :: after)
    (hm : e.message.isControl = false) :
    ∃ w us ending w' tail,
      e.visits = ⟨w, .dispatch a e.message⟩ :: (us ++ ⟨w', .setRole a ending.role⟩ :: tail) ∧
      (Act.interpret company (company.behaviour.handle (l.role (l.after s before))
        ⟨idAfter id before, nameAfter name before, w.pool.addressOf a⟩ e.message)).Came us ending ∧
      (Act.windUp a ending.verdict).Came tail e.outcome := by
  have hright := (h.play hc hplay).logged.right a
  have hvisits : (d.dossier company a).visits = before.flatMap (·.visits) ++ (e.visits ++
      (after.flatMap (·.visits) ++ (d.dossier company a).current.toList.flatMap (·.2))) := by
    simp [Dossier.visits, hclosed]
  have hmem : ∀ e' ∈ before, e' ∈ (d.dossier company a).closed := by simp +contextual [hclosed]
  obtain ⟨u, hu, hchain⟩ :=
    self_at l hc h hnew hself hplay hmem (hright.going_before hclosed) hvisits
  obtain ⟨u', hfirst, -⟩ := Chain.append.mp hchain
  exact Act.came_answered hm (hright.came e (by simp [hclosed])) (hfirst.head hu)

/-- What an actor has become when it turns to the message that is being dealt with. -/
theorem self_now {m : Message σ.Value} {vs : List (Visit σ)}
    (hcurrent : (d.dossier company a).current = some (m, vs)) :
    ∃ u, u.pool.selfOf a = some (l.role (l.after s (d.dossier company a).closed),
        nameAfter name (d.dossier company a).closed, idAfter id (d.dossier company a).closed) ∧
      Chain (·.pool.selfOf a) u vs d.world := by
  have hright := (h.play hc hplay).logged.right a
  refine self_at l hc h hnew hself hplay (fun _ he => he) (hright.going ?_) ?_
  · rw [hcurrent]
    rfl
  · simp [Dossier.visits, hcurrent]

/-- The role that the actor has become is answering the message that has come to it. -/
theorem answering_now {m : Message σ.Value} {vs : List (Visit σ)}
    (hcurrent : (d.dossier company a).current = some (m, vs)) (hm : m.isControl = false)
    (hne : vs ≠ []) :
    ∃ w us ending w' tail o,
      vs <+: ⟨w, .dispatch a m⟩ :: (us ++ ⟨w', .setRole a ending.role⟩ :: tail) ∧
      (Act.interpret company (company.behaviour.handle
        (l.role (l.after s (d.dossier company a).closed)) ⟨idAfter id (d.dossier company a).closed,
          nameAfter name (d.dossier company a).closed, w.pool.addressOf a⟩ m)).Came us ending ∧
      (Act.windUp a ending.verdict).Came tail o := by
  obtain ⟨rest, htoward⟩ := (h.play hc hplay).logged.toward hcurrent
  obtain ⟨u, hu, hchain⟩ := self_now l hc h hnew hself hplay hcurrent
  -- however it goes on from here, it began like this
  have hcame := htoward.came (Act.came_run rest d.world)
  have hhead : ∀ v, (vs ++ rest.visits d.world).head? = some v → v.world.pool.selfOf a =
      some (l.role (l.after s (d.dossier company a).closed),
        nameAfter name (d.dossier company a).closed, idAfter id (d.dossier company a).closed) := by
    intro v hv
    rw [List.head?_append_of_ne_nil _ hne] at hv
    exact hchain.head hu v hv
  obtain ⟨w, us, ending, w', tail, hvisits, hus, htail⟩ := Act.came_answered hm hcame hhead
  refine ⟨w, us, ending, w', tail, _, ?_, hus, htail⟩
  rw [← hvisits]
  exact List.prefix_append _ _

end

/-! ### Going on to the end -/

/-- The next access of a thread that deals with a message, if it need not wait. -/
theorem advance (hc : company.Civil) (h : Booked config company c) {i : ThreadId} {x : Atom σ}
    {next : x.Answer → Act σ Outcome} (hm : c.midst company i = .dealing a (.ask x next))
    (hx : x.ready c.world) :
    ∃ c', c.step company (.go i) = some c' ∧ Booked config company c' ∧
      c'.logbook company =
        (c.logbook company).advanced i a ⟨c.world, x⟩ (next (x.answer c.world)) := by
  cases hj : c.jobs i with
  | none =>
    rw [h.minding.idle i hj] at hm
    cases hm
  | some j =>
    have hbusy := h.minding.busy i j hj
    rw [hm] at hbusy
    cases hrest : j.rest with
    | done o =>
      rw [hrest] at hbusy
      cases hbusy
    | ask y f =>
      rw [hrest] at hbusy
      obtain rfl : y = x := hbusy.1
      have hstep : c.step company (.go i) = some (c.access i j y f) := by
        simp [Crew.step, hj, hrest, hx]
      refine ⟨_, hstep, h.step hc hstep, ?_⟩
      rw [Crew.logbook_snoc (c := c) rfl, Logbook.enter]
      simp only [show (c.logbook company).midst i = _ from hm]

theorem advanced {l : Logbook σ} {i : ThreadId} {v : Visit σ} {rest : Act σ Outcome}
    (h : c.logbook company = l.advanced i a v rest) :
    c.midst company i = .having a rest ∧ c.dossier company a = (l.dossier a).after v rest := by
  rw [Crew.midst, Crew.dossier, h]
  exact ⟨assign_self _ _ _, assign_self _ _ _⟩

/-- A thread that has nothing to wait for deals with its message to the end. -/
theorem closes (hc : company.Civil) (h : Booked config company c) {i : ThreadId}
    {rest : Act σ Outcome} (hm : c.midst company i = .having a rest)
    (hend : ∀ o, rest = .done o → (c.dossier company a).current = none)
    (hrest : rest.All (·.prompt)) :
    ∃ n c', c.play company (List.replicate n (.go i)) = some c' ∧
      (c'.dossier company a).current = none ∧
      (c'.dossier company a).messages = (c.dossier company a).messages := by
  induction rest generalizing c with
  | done o => exact ⟨0, c, rfl, hend o rfl, rfl⟩
  | ask x next ih =>
    obtain ⟨c', hstep, hbooked, hlog⟩ := h.advance hc hm (Atom.ready_of_prompt hrest.1 c.world)
    obtain ⟨hmidst, hdossier⟩ := advanced hlog
    obtain ⟨n, d, hplay, hnone, hsame⟩ := ih (x.answer c.world) hbooked hmidst
      (fun o ho => by rw [hdossier, ho]; rfl) (hrest.2 _)
    refine ⟨n + 1, d, Moves.play_cons.mpr ⟨c', hstep, hplay⟩, hnone, ?_⟩
    rw [hsame, hdossier]
    exact Dossier.messages_after _ _ _

/-- Whoever deals with a message for a role that never has to wait comes to the end. -/
theorem closes_role (l : Lineage company S) (hc : company.Civil) (h : Booked config company c)
    (hnew : c.taken a = []) (hself : c.world.pool.selfOf a = some (l.role s, name, id))
    (hplay : c.play company ms = some d)
    (hprompt : ∀ s ctx m, (Act.interpret company (company.behaviour.handle (l.role s) ctx m)).All
      (·.prompt)) {i : ThreadId} {rest : Act σ Outcome}
    (hm : d.midst company i = .dealing a rest) :
    ∃ n d', d.play company (List.replicate n (.go i)) = some d' ∧
      (d'.dossier company a).current = none ∧
      (d'.dossier company a).messages = (d.dossier company a).messages := by
  have hd := h.play hc hplay
  obtain ⟨m, vs, x, next, hcurrent, rfl, htoward⟩ := hd.logged.under i a rest hm
  have hm : d.midst company i = .having a (.ask x next) := hm
  have hwind : ∀ x : Atom σ, x.formal a → x.prompt := by
    intro x hx
    cases x <;> first | rfl | cases hx
  cases hcontrol : m.isControl with
  | true =>
    exact hd.closes hc hm nofun (htoward.all ((Act.deal_formal hcontrol).mono hwind))
  | false =>
    obtain ⟨u, hu, hchain⟩ := self_now l hc h hnew hself hplay hcurrent
    have hleft : ∀ w : World σ, w.pool.selfOf a = u.pool.selfOf a →
        (Act.afterDispatch company a ((Atom.dispatch a m).answer w) m >>= Act.conclude a :
          Act σ Outcome).All (·.prompt) := by
      intro w hw
      rw [Act.dispatch_answer (hw.trans hu), Act.afterDispatch_conclude]
      exact Dialogue.all_bind (hprompt _ _ m) fun ending => ⟨rfl, fun _ =>
        (Act.windUp_windsUp ending.verdict).mono fun _ hx => hwind _ (Atom.formal_of_windsUp hx)⟩
    rw [Act.deal_user company a hcontrol] at htoward
    cases vs with
    | nil =>
      cases htoward
      obtain ⟨d', hstep, hbooked, hlog⟩ := hd.advance hc hm rfl
      obtain ⟨hmidst, hdossier⟩ := advanced hlog
      obtain ⟨n, e, hrun, hnone, hsame⟩ := hbooked.closes hc hmidst
        (fun o ho => by rw [hdossier, ho]; rfl) (hleft d.world hchain)
      refine ⟨n + 1, e, Moves.play_cons.mpr ⟨d', hstep, hrun⟩, hnone, ?_⟩
      rw [hsame, hdossier]
      exact Dossier.messages_after _ _ _
    | cons v vs =>
      obtain ⟨w, y⟩ := v
      obtain ⟨rfl, htoward⟩ := htoward
      exact hd.closes hc hm nofun (htoward.all (hleft w hchain.1))

end Booked

end ActorSystem
