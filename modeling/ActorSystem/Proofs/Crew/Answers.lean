import ActorSystem.Proofs.Crew.Selves
import ActorSystem.Proofs.Crew.Stops

/-!
# What is done for a message

A message for the role is answered by the role that the actor has then, which leaves another role in
its place. A control message changes the name or the ID, and the ID only if the post office lets the
mailbox move.

* `Dealing.answered`: a message for the role.
* `Dealing.obeyed`: a control message.
-/

namespace ActorSystem

variable {σ : Signature} {α β : Type} {company : Company σ} {a : ActorRef}

/-! ## Chains over accesses that change nothing -/

namespace Chain

variable {f : World σ → β} {w w' : World σ} {vs : List (Visit σ)}

theorem const (h : Chain f w vs w')
    (hf : ∀ v ∈ vs, f v.world = f w → f (v.atom.effect v.world) = f w) :
    f w' = f w ∧ ∀ v ∈ vs, f v.world = f w := by
  induction vs generalizing w with
  | nil => exact ⟨h, fun v hv => absurd hv List.not_mem_nil⟩
  | cons v vs ih =>
    have hv : f (v.atom.effect v.world) = f w := hf v List.mem_cons_self h.1
    have hrest := ih h.2 fun u hu hsame =>
      (hf u (List.mem_cons_of_mem v hu) (hsame.trans hv)).trans hv.symm
    refine ⟨hrest.1.trans hv, fun u hu => ?_⟩
    rcases List.mem_cons.mp hu with rfl | hu
    · exact h.1
    · exact (hrest.2 u hu).trans hv

theorem head {x : β} (h : Chain f w vs w') (hw : f w = x) :
    ∀ v, vs.head? = some v → f v.world = x := by
  intro v hv
  cases vs with
  | nil => cases hv
  | cons u vs =>
    cases hv
    exact h.1.trans hw

/-- What an actor is stays the same over accesses that have nothing to do with it. -/
theorem selfless {s : σ.Role × String × Option ActorId}
    (h : Chain (·.pool.selfOf a) w vs w') (hs : w.pool.selfOf a = some s)
    (hvs : ∀ v ∈ vs, v.atom.selfless a) :
    w'.pool.selfOf a = some s ∧ ∀ v ∈ vs, v.world.pool.selfOf a = some s := by
  have hconst := h.const fun v hv hsame => by
    have hsome : (v.world.pool.selfOf a).isSome := by
      rw [hsame, hs]
      rfl
    exact (Atom.selfOf_of_selfless (hvs v hv) hsome).trans hsame
  rw [hs] at hconst
  exact hconst

end Chain

/-! ## What is done for a message -/

/-- What is done when the role of `a` has answered and is back in its place. -/
def Atom.windsUp (a : ActorRef) : Atom σ → Bool
  | .look | .report _ => true
  | .sicken c | .dropId c | .revoke (.actor c) _ => c = a
  | _ => false

/-- What is done for a message of `a`, whatever its role does. -/
def Atom.formal (a : ActorRef) (x : Atom σ) : Bool := x.minds a || x.windsUp a

theorem Atom.formal_of_minds {x : Atom σ} (hx : x.minds a) : x.formal a := by
  simp [Atom.formal, hx]

theorem Atom.formal_of_windsUp {x : Atom σ} (hx : x.windsUp a) : x.formal a := by
  simp [Atom.formal, hx]

/-- Nobody who makes such an access has to wait. -/
def Atom.prompt : Atom σ → Bool
  | .takeMail _ | .lock _ => false
  | _ => true

theorem Atom.ready_of_prompt {x : Atom σ} (hx : x.prompt) (w : World σ) : x.ready w := by
  cases x <;> first | rfl | cases hx

/-- The post office lets a mailbox move. -/
def Visit.moves (v : Visit σ) : Bool :=
  match v.atom with
  | .rekey b source target => (v.world.pool.office.rekey b source target).isOk
  | _ => false

namespace Act

variable {vs : List (Visit σ)} {o : Outcome}

/-- What is left to do after a verdict. -/
def windUp (a : ActorRef) (verdict : Verdict) : Act σ Outcome := do
  match verdict with
  | .returned _ => pure ()
  | .panicked p => report (.rolePanicked ((← pool).addressOf a) p.message)
  conclude a verdict.outcome

theorem windUp_returned (h : o ≠ .poisoned) : (windUp a (.returned o) : Act σ _) = .done o := by
  cases o <;> first | rfl | exact absurd rfl h

theorem makeSick_windsUp : (makeSick a : Act σ Unit).All (·.windsUp a) := by
  refine all_makeSick (P := fun x => x.windsUp a) rfl (fun _ => rfl) ?_ ?_ fun _ => ?_ <;>
    exact decide_eq_true rfl

theorem conclude_windsUp (o : Outcome) : (conclude a o : Act σ _).All (·.windsUp a) := by
  cases o with
  | poisoned => exact Dialogue.all_bind makeSick_windsUp fun _ => trivial
  | skipped | complete | error => trivial

theorem windUp_windsUp (verdict : Verdict) : (windUp a verdict : Act σ _).All (·.windsUp a) := by
  cases verdict with
  | returned o => exact conclude_windsUp o
  | panicked p => exact ⟨rfl, fun _ => ⟨rfl, fun _ => trivial⟩⟩

theorem windUp_selfless {verdict : Verdict} (h : verdict.outcome ≠ .poisoned) :
    (windUp a verdict : Act σ _).All (·.selfless a) := by
  have hconclude : (conclude a verdict.outcome : Act σ _).All (·.selfless a) := by
    cases ho : verdict.outcome with
    | poisoned => exact absurd ho h
    | skipped | complete | error => trivial
  cases verdict with
  | returned o => exact hconclude
  | panicked p => exact ⟨rfl, fun _ => ⟨rfl, fun _ => hconclude⟩⟩

theorem outcome_of_conclude {o r : Outcome} (h : (conclude a o : Act σ _).Came vs r) : r = o := by
  cases o with
  | poisoned =>
    obtain ⟨us, ws, u, -, -, hend⟩ := came_bind h
    exact hend.2
  | skipped | complete | error => exact h.2

theorem outcome_of_windUp {verdict : Verdict} (h : (windUp a verdict : Act σ _).Came vs o) :
    o = verdict.outcome := by
  cases verdict with
  | returned r => exact outcome_of_conclude h
  | panicked p =>
    obtain ⟨w, rest, -, w', rest', -, hend⟩ := h
    exact outcome_of_conclude (a := a) hend

/-- The role has no part any more in what is done from when it is put back. -/
theorem formal_back {verdict : Verdict} (h : (windUp a verdict : Act σ _).Came vs o)
    (role : σ.Role) (w : World σ) : ∀ v ∈ ⟨w, .setRole a role⟩ :: vs, v.atom.formal a := by
  intro v hv
  rcases List.mem_cons.mp hv with rfl | hv
  · exact Atom.formal_of_minds (decide_eq_true rfl)
  · exact Atom.formal_of_windsUp (h.all (windUp_windsUp verdict) v hv)

theorem dispatch_answer {w : World σ} {role : σ.Role} {name : String} {id : Option ActorId}
    (hself : w.pool.selfOf a = some (role, name, id)) {m : Message σ.Value} :
    (Atom.dispatch a m).answer w = some (role, ⟨id, name, w.pool.addressOf a⟩) := by
  obtain ⟨x, hx, hxself⟩ := Option.map_eq_some_iff.mp hself
  cases hxself
  simp only [Atom.answer, hx, Pool.contextOf, Pool.idOf, Pool.nameOf]
  rfl

theorem deal_user (company : Company σ) (a : ActorRef) {m : Message σ.Value}
    (hm : m.isControl = false) :
    deal company a m = .ask (.dispatch a m) fun (found : Option (σ.Role × Context)) =>
      afterDispatch company a found m >>= conclude a := by
  obtain ⟨source, body⟩ := m
  cases body with
  | control c => cases hm
  | user value =>
    change dispatch company a ⟨source, .user value⟩ >>= conclude a = _
    rw [dispatch_eq]
    rfl

/-- What is left to do when a role has been found. -/
theorem afterDispatch_conclude (company : Company σ) (a : ActorRef) (role : σ.Role) (ctx : Context)
    (m : Message σ.Value) :
    (afterDispatch company a (some (role, ctx)) m >>= conclude a : Act σ Outcome) =
      interpret company (company.behaviour.handle role ctx m) >>= fun ending =>
        .ask (.setRole a ending.role) fun _ => windUp a ending.verdict := by
  refine (Dialogue.bind_assoc
    (interpret company (company.behaviour.handle role ctx m)) _ _).trans ?_
  refine congrArg ((interpret company (company.behaviour.handle role ctx m)).bind ·)
    (funext fun ending => congrArg (Dialogue.ask _) (funext fun _ => ?_))
  cases ending.verdict <;> rfl

/-- The role is found, it answers, it is put back, and what it came to takes effect. -/
theorem came_answered {m : Message σ.Value} (hm : m.isControl = false)
    (h : (deal company a m).Came vs o) {role : σ.Role} {name : String} {id : Option ActorId}
    (hself : ∀ v, vs.head? = some v → v.world.pool.selfOf a = some (role, name, id)) :
    ∃ w us ending w' tail,
      vs = ⟨w, .dispatch a m⟩ :: (us ++ ⟨w', .setRole a ending.role⟩ :: tail) ∧
      (interpret company (company.behaviour.handle role ⟨id, name, w.pool.addressOf a⟩ m)).Came us
        ending ∧
      (windUp a ending.verdict).Came tail o := by
  rw [deal_user company a hm] at h
  obtain ⟨w, rest, rfl, hrest⟩ := h
  rw [dispatch_answer (hself _ rfl)] at hrest
  dsimp only at hrest
  rw [afterDispatch_conclude] at hrest
  obtain ⟨us, ws, ending, rfl, hrole, w', tail, rfl, htail⟩ := came_bind hrest
  exact ⟨w, us, ending, w', tail, rfl, hrole, htail⟩

/-- A letter is put into the mailbox that was found at its address. -/
theorem came_post {target : Address} {m : Message σ.Value} {sent : Except Error Unit}
    (h : (post target m : Act σ _).Came vs sent) :
    (∃ w w' b, vs = [⟨w, .resolve target⟩, ⟨w', .put b m⟩] ∧
      (w.pool.office.resolve target).1 = some b ∧ sent = .ok ()) ∨
    (∃ w w', vs = [⟨w, .resolve target⟩, ⟨w', .report (.unknownAddress target)⟩] ∧
      (w.pool.office.resolve target).1 = none ∧ sent = .error (.addressNotFound target)) := by
  obtain ⟨w, rest, rfl, h⟩ := h
  dsimp only [Atom.answer] at h
  cases hfound : (w.pool.office.resolve target).1 with
  | some b =>
    rw [hfound] at h
    obtain ⟨w', rest, rfl, rfl, rfl⟩ := h
    exact .inl ⟨w, w', b, rfl, hfound, rfl⟩
  | none =>
    rw [hfound] at h
    obtain ⟨w', rest, rfl, rfl, rfl⟩ := h
    exact .inr ⟨w, w', rfl, hfound, rfl⟩

theorem post_prompt (target : Address) (m : Message σ.Value) :
    (post target m : Act σ _).All (·.prompt) := by
  refine ⟨rfl, fun (found : Option BoxRef) => ?_⟩
  cases found <;> exact ⟨rfl, fun _ => trivial⟩

theorem came_poison {source : Option Address}
    (h : (deal company a ⟨source, .control .poison⟩).Came vs o) :
    o = .poisoned ∧ ∀ v ∈ vs, v.atom.windsUp a := by
  have hconclude : (conclude a .poisoned : Act σ _).Came vs o := h
  exact ⟨outcome_of_conclude hconclude, hconclude.all (conclude_windsUp _)⟩

theorem came_setName {source : Option Address} {name : String}
    (h : (deal company a ⟨source, .control (.setName name)⟩).Came vs o) :
    o = .complete ∧ ∃ w, vs = [⟨w, .setName a name⟩] := by
  obtain ⟨w, rest, rfl, rfl, rfl⟩ := h
  exact ⟨rfl, w, rfl⟩

/-- The post office lets the mailbox move, or it does not. -/
theorem came_readdress {b : BoxRef} {target : Address} {r : Except Error Unit}
    (h : (readdress b target : Act σ _).Came vs r) :
    vs.any (·.moves) = r.isOk ∧ ∀ v ∈ vs, v.atom.selfless a := by
  refine ⟨?_, h.all
    (all_readdress (P := fun x => x.selfless a) rfl (fun _ => rfl) (fun _ => rfl) rfl)⟩
  obtain ⟨w, rest, rfl, h⟩ := h
  change (if w.pool.office.closed then _ else _ : Act σ _).Came rest r at h
  split at h
  · obtain ⟨rfl, rfl⟩ := h
    rfl
  obtain ⟨w₁, rest, rfl, h⟩ := h
  have hmoves : Visit.moves ⟨w₁, .rekey b (w.pool.office.addressOf b) target⟩ = r.isOk ∧
      rest.any (·.moves) = false := by
    dsimp only [Atom.answer] at h
    cases hrekey : w₁.pool.office.rekey b (w.pool.office.addressOf b) target with
    | error e =>
      rw [hrekey] at h
      obtain ⟨rfl, rfl⟩ := h
      simp only [Visit.moves, hrekey]
      exact ⟨rfl, rfl⟩
    | ok office =>
      rw [hrekey] at h
      change (if w.pool.office.addressOf b ≠ target then _ else _ : Act σ _).Came rest r at h
      simp only [Visit.moves, hrekey]
      split at h
      · obtain ⟨w₂, rest, rfl, w₃, rest', rfl, rfl, rfl⟩ := h
        exact ⟨rfl, rfl⟩
      · obtain ⟨w₂, rest, rfl, rfl, rfl⟩ := h
        exact ⟨rfl, rfl⟩
  rw [List.any_cons, List.any_cons, hmoves.2, ← hmoves.1]
  exact Bool.or_false _

/-- The actor gets the ID if the post office lets its mailbox move there, and then only. -/
theorem came_setId {source : Option Address} {id : ActorId}
    (h : (deal company a ⟨source, .control (.setId id)⟩).Came vs o) :
    o = .complete ∧
      ((vs.any (·.moves) = false ∧ ∀ v ∈ vs, v.atom.selfless a) ∨
        (vs.any (·.moves) = true ∧ ∃ front w back, vs = front ++ ⟨w, .setId a id⟩ :: back ∧
          (∀ v ∈ front, v.atom.selfless a) ∧ ∀ v ∈ back, v.atom.selfless a)) := by
  obtain ⟨us, ws, r, rfl, hmail, hend⟩ := came_bind h
  have hmail : (changeId a id >>= fun _ => return .complete : Act σ _).Came us r := hmail
  obtain ⟨us, ws', u, rfl, hchange, rfl, rfl⟩ := came_bind hmail
  obtain ⟨rfl, rfl⟩ := hend
  refine ⟨rfl, ?_⟩
  rw [List.append_nil, List.append_nil]
  rw [changeId_eq] at hchange
  obtain ⟨w, rest, rfl, hrest⟩ := hchange
  change ((w.pool.actor? a).elim (return ()) (takeId a id (w.pool.addressOf a)) : Act σ _).Came
    rest u at hrest
  cases hactor : w.pool.actor? a with
  | none =>
    rw [hactor] at hrest
    obtain ⟨rfl, -⟩ := hrest
    exact .inl ⟨rfl, by simp [Atom.selfless]⟩
  | some x =>
    rw [hactor] at hrest
    change (if id.address.isNamed then _ else _ : Act σ _).Came rest u at hrest
    split at hrest
    · obtain ⟨w₁, rest, rfl, rfl, -⟩ := hrest
      exact .inl ⟨rfl, by simp [Atom.selfless]⟩
    obtain ⟨us, ws, r, rfl, hmove, hend⟩ := came_bind hrest
    obtain ⟨hmoves, hfront⟩ := came_readdress (a := a) hmove
    cases r with
    | error e =>
      obtain ⟨w₁, rest, rfl, rfl, -⟩ := hend
      refine .inl ⟨?_, ?_⟩
      · rw [List.any_cons, List.any_append, hmoves]
        rfl
      · simp only [List.mem_cons, List.mem_append]
        rintro v (rfl | hv | rfl | hv)
        · rfl
        · exact hfront v hv
        · rfl
        · cases hv
    | ok _ =>
      obtain ⟨w₁, rest, rfl, w₂, rest, rfl, w₃, rest, rfl, rfl, -⟩ := hend
      refine .inr ⟨?_, ⟨w, .look⟩ :: us, w₁, [⟨w₂, .reserve id⟩,
        ⟨w₃, .report (.renumbered id.address x.name)⟩], rfl, ?_, ?_⟩
      · rw [List.any_cons, List.any_append, hmoves]
        rfl
      · rintro v hv
        rcases List.mem_cons.mp hv with rfl | hv
        · rfl
        · exact hfront v hv
      · simp [Atom.selfless]

/-- A control message stops the actor if it says so. -/
theorem poisoned_of_control {m : Message σ.Value} (hm : m.isControl)
    (h : (deal company a m).Came vs o) : o = .poisoned ↔ m.isPoison := by
  obtain ⟨source, body⟩ := m
  cases body with
  | user value => cases hm
  | control c =>
    cases c with
    | poison => exact iff_of_true (came_poison h).1 rfl
    | setName name =>
      rw [(came_setName h).1]
      exact iff_of_false nofun Bool.false_ne_true
    | setId id =>
      rw [(came_setId h).1]
      exact iff_of_false nofun Bool.false_ne_true

/-- No role has a part in what is done for a control message. -/
theorem deal_formal {m : Message σ.Value} (hm : m.isControl) :
    (deal company a m).All (·.formal a) := by
  have hend : ∀ o, (conclude a o : Act σ _).All (·.formal a) :=
    fun o => (conclude_windsUp o).mono fun _ hx => Atom.formal_of_windsUp hx
  obtain ⟨source, body⟩ := m
  cases body with
  | user value => cases hm
  | control c =>
    cases c with
    | poison => exact hend .poisoned
    | setName name => exact ⟨Atom.formal_of_minds (decide_eq_true rfl), fun _ => hend .complete⟩
    | setId id =>
      have hchange : (changeId a id : Act σ _).All fun x => x.formal a :=
        changeId_all (fun _ hx => Atom.formal_of_minds hx) id
      exact Dialogue.all_bind (Dialogue.all_bind hchange fun _ => trivial) hend

/-- A message for the role is handed to it, and that once. -/
theorem dispatched_of_came (hc : company.Civil) {m : Message σ.Value}
    (h : (deal company a m).Came vs o) :
    vs.filterMap (·.dispatched a) = if m.isControl then [] else [m] := by
  have hnone : ∀ {us : List (Visit σ)}, (∀ v ∈ us, v.atom.asked ∨ v.atom.formal a) →
      us.filterMap (·.dispatched a) = [] := by
    intro us hus
    refine List.filterMap_eq_nil_iff.mpr fun v hv => ?_
    obtain ⟨w, x⟩ := v
    cases x with
    | dispatch b n => rcases hus _ hv with hx | hx <;> cases hx
    | _ => rfl
  cases hm : m.isControl with
  | true => exact hnone fun v hv => .inr (h.all (deal_formal hm) v hv)
  | false =>
    rw [deal_user company a hm] at h
    obtain ⟨w, rest, rfl, hrest⟩ := h
    have hall : ∀ found : Option (σ.Role × Context),
        (afterDispatch company a found m >>= conclude a : Act σ Outcome).All
          fun x => x.asked ∨ x.formal a := by
      intro found
      refine Dialogue.all_bind (afterDispatch_all (fun _ _ _ => ?_) (fun _ hx => ?_) found m)
        fun o => (conclude_windsUp o).mono fun _ hx => .inr (Atom.formal_of_windsUp hx)
      · exact (interpret_asked hc _).mono fun _ hx => .inl hx
      · exact .inr (Atom.formal_of_minds hx)
    rw [List.filterMap_cons, hnone (hrest.all (hall _))]
    simp [Visit.dispatched]

end Act

/-! ## What the actor is after it -/

namespace Dealing

variable {e : Dealing σ} {role : σ.Role} {name : String} {id : Option ActorId} {u u' : World σ}

/-- The name that the actor gets. -/
def newName? (e : Dealing σ) : Option String :=
  match e.message.body with
  | .control (.setName name) => some name
  | _ => none

/-- The ID that the actor gets, which it asked for and the post office did not refuse. -/
def newId? (e : Dealing σ) : Option ActorId :=
  match e.message.body with
  | .control (.setId id) => if e.visits.any (·.moves) then some id else none
  | _ => none

theorem obeyed (hcame : (Act.deal company a e.message).Came e.visits e.outcome)
    (hm : e.message.isControl) (ho : e.outcome ≠ .poisoned)
    (hchain : Chain (·.pool.selfOf a) u e.visits u')
    (hself : u.pool.selfOf a = some (role, name, id)) :
    u'.pool.selfOf a = some (role, e.newName?.getD name, e.newId?.or id) := by
  obtain ⟨⟨source, body⟩, vs, o⟩ := e
  cases body with
  | user value => cases hm
  | control c =>
    cases c with
    | poison => exact absurd (Act.came_poison hcame).1 ho
    | setName n =>
      obtain ⟨-, w, rfl⟩ := Act.came_setName hcame
      obtain ⟨hw, hend⟩ := hchain
      exact hend.trans (Atom.selfOf_setName (hw.trans hself) n)
    | setId i =>
      rcases (Act.came_setId hcame).2 with
        ⟨hmoves, hvs⟩ | ⟨hmoves, front, w, back, rfl, hfront, hback⟩
      · rw [(hchain.selfless hself hvs).1]
        simp [newName?, newId?, hmoves]
      · obtain ⟨w₁, hbefore, hw, hafter⟩ := Chain.append.mp hchain
        have hset : ((Atom.setId a i).effect w).pool.selfOf a = some (role, name, some i) :=
          Atom.selfOf_setId (hw.trans (hbefore.selfless hself hfront).1) i
        rw [(hafter.selfless hset hback).1]
        simp [newName?, newId?, hmoves]

/-- A message for the role is answered by the role that the actor has. -/
theorem answered (hc : company.Civil)
    (hcame : (Act.deal company a e.message).Came e.visits e.outcome)
    (hm : e.message.isControl = false) (hchain : Chain (·.pool.selfOf a) u e.visits u')
    (hself : u.pool.selfOf a = some (role, name, id)) :
    ∃ w us ending w' tail,
      e.visits = ⟨w, .dispatch a e.message⟩ :: (us ++ ⟨w', .setRole a ending.role⟩ :: tail) ∧
      (Act.interpret company (company.behaviour.handle role ⟨id, name, w.pool.addressOf a⟩
        e.message)).Came us ending ∧
      (Act.windUp a ending.verdict).Came tail e.outcome ∧
      (e.outcome ≠ .poisoned → u'.pool.selfOf a = some (ending.role, name, id)) := by
  obtain ⟨w, us, ending, w', tail, hvisits, hus, htail⟩ :=
    Act.came_answered hm hcame (hchain.head hself)
  refine ⟨w, us, ending, w', tail, hvisits, hus, htail, fun ho => ?_⟩
  rw [hvisits] at hchain
  obtain ⟨hw, hrest⟩ := hchain
  have hw : w.pool.selfOf a = some (role, name, id) := hw.trans hself
  obtain ⟨w₁, hbefore, hw₁, hafter⟩ := Chain.append.mp hrest
  have hasked : ∀ v ∈ us, v.atom.selfless a := fun v hv =>
    Atom.selfless_of_asked (hus.all (Act.interpret_asked hc _) v hv)
  have hset : ((Atom.setRole a ending.role).effect w').pool.selfOf a =
      some (ending.role, name, id) :=
    Atom.selfOf_setRole (hw₁.trans (hbefore.selfless hw hasked).1) ending.role
  have hverdict : ending.verdict.outcome ≠ .poisoned := by
    rwa [← Act.outcome_of_windUp htail]
  exact (hafter.selfless hset (htail.all (Act.windUp_selfless hverdict))).1

end Dealing

end ActorSystem
