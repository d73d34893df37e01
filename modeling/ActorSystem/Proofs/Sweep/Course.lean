import ActorSystem.Proofs.Courier
import ActorSystem.Proofs.Identity.Claims
import ActorSystem.Proofs.Identity.Renumbering
import ActorSystem.Proofs.Sweep.Erasures
import ActorSystem.Proofs.Sweep.Still

/-!
# The course of a drain

A drain handles the messages that were in the mailbox when it began, one after another, and breaks
off where one of them stops the actor. What is sent to the actor meanwhile stays in the mailbox.

* `Handles`: what comes of one message of each kind.
* `Course`: messages handled one after another.
* `Act.consume_course`: the loop of a drain follows a course.
* `drain_keeps_to_course`: what a drain comes to, whenever an actor is taken.
-/

namespace ActorSystem

variable {σ : Signature} {α : Type} {company : Company σ} {w w' : World σ}
variable {a : ActorRef} {b : BoxRef}

/-! ## One message -/

/-- Actor `a`, whose mailbox is `b`, handles a message in the first world; it comes to an outcome,
and to the second world. -/
inductive Handles (company : Company σ) (a : ActorRef) (b : BoxRef) :
    World σ → Message σ.Value → Outcome → World σ → Prop
  | poison {w : World σ} {source : Option Address} :
    Handles company a b w ⟨source, .control .poison⟩ .poisoned w
  | setName {w : World σ} {source : Option Address} (name : String) :
    Handles company a b w ⟨source, .control (.setName name)⟩ .complete
      (w.modifyActor a fun x => { x with name })
  | accept {w w' : World σ} {source : Option Address} {id : ActorId} (accepts : w.pool.Accepts b id)
    (took : w.pool.Took a b id w'.pool) (rest : w'.env = w.env) :
    Handles company a b w ⟨source, .control (.setId id)⟩ .complete w'
  | refuse {w : World σ} {source : Option Address} {id : ActorId} (refuses : ¬w.pool.Accepts b id) :
    Handles company a b w ⟨source, .control (.setId id)⟩ .complete (w.report (w.pool.refusal b id))
  /-- The role gets the message, with what it may know of its actor as it is now. -/
  | answer {w w' u : World σ} {source : Option Address} {value : σ.Value} {x : Actor σ}
    {ending : Ending σ} (actor : w.pool.actor? a = some x)
    (run : (Act.interpret company (company.behaviour.handle x.role (w.pool.contextOf a)
      ⟨source, .user value⟩)).run w = (ending, u))
    (left : w'.pool = u.pool.modifyActor a fun x => { x with role := ending.role })
    (rest : w'.env = u.env) :
    Handles company a b w ⟨source, .user value⟩ ending.verdict.outcome w'

/-! ## One message after another -/

/-- A message that an actor has taken, the world in which it begins to handle it, and what that
comes to. -/
structure Handling (σ : Signature) where
  message : Message σ.Value
  world : World σ
  outcome : Outcome

namespace Handling

/-- The name that the actor takes. -/
def newName? (x : Handling σ) : Option String :=
  match x.message.body with
  | .control (.setName name) => some name
  | _ => none

/-- The ID that the actor takes: one that is not accepted is not taken. -/
def newId? (b : BoxRef) (x : Handling σ) : Option ActorId :=
  match x.message.body with
  | .control (.setId id) => if x.world.pool.Accepts b id then some id else none
  | _ => none

end Handling

/-- Actor `a` takes messages from the front of its mailbox and handles them, and does not go on
after one that stops it. -/
inductive Course (company : Company σ) (a : ActorRef) (b : BoxRef) :
    World σ → List (Handling σ) → World σ → Prop
  | rest (w : World σ) : Course company a b w [] w
  | stop {w w' : World σ} {m : Message σ.Value} (front : (w.pool.mailOf a).head? = some m)
    (handles : Handles company a b ((Atom.takeMail a).effect w) m .poisoned w') :
    Course company a b w [⟨m, (Atom.takeMail a).effect w, .poisoned⟩] w'
  | next {w u w' : World σ} {m : Message σ.Value} {o : Outcome} {xs : List (Handling σ)}
    (front : (w.pool.mailOf a).head? = some m)
    (handles : Handles company a b ((Atom.takeMail a).effect w) m o u) (goes : o ≠ .poisoned)
    (later : Course company a b u xs w') :
    Course company a b w (⟨m, (Atom.takeMail a).effect w, o⟩ :: xs) w'

namespace Course

variable {xs : List (Handling σ)}

/-- Only the last message may have stopped the actor. -/
theorem length_of_poisoned (h : Course company a b w xs w') {i : Nat} {x : Handling σ}
    (hx : xs[i]? = some x) (ho : x.outcome = .poisoned) : xs.length = i + 1 := by
  induction h generalizing i with
  | rest w => simp at hx
  | stop front handles =>
    have hi := (List.getElem?_eq_some_iff.mp hx).1
    simp only [List.length_singleton] at hi ⊢
    omega
  | next front handles goes later ih =>
    cases i with
    | zero =>
      simp only [List.getElem?_cons_zero, Option.some.injEq] at hx
      rw [← hx] at ho
      exact absurd ho goes
    | succ i => rw [List.length_cons, ih hx]

end Course

/-! ## What a drain does to its own actor -/

namespace Atom

variable {x : Atom σ}

/-- Whatever is asked of a pool, the actors that it has stay what they are. -/
theorem actor?_of_asked (hx : x.asked) {y : Actor σ} (hy : w.pool.actor? a = some y) :
    (x.effect w).pool.actor? a = some y := by
  have hold : a < w.pool.actors.size := (Array.getElem?_eq_some_iff.mp hy).1
  rw [Pool.actor?, actors_effect]
  cases x with
  | enroll z =>
    dsimp only
    rw [Array.getElem?_push, if_neg (Nat.ne_of_lt hold)]
    exact hy
  | _ => first | exact hy | cases hx

end Atom

theorem filterMap_cons_toList {β γ : Type} (f : β → Option γ) (x : β) (xs : List β) :
    (x :: xs).filterMap f = (f x).toList ++ xs.filterMap f := by
  cases hx : f x <;> simp [hx]

theorem getLast?_filterMap_cons {β γ : Type} (f : β → Option γ) (x : β) (xs : List β) :
    ((x :: xs).filterMap f).getLast? = (xs.filterMap f).getLast?.or (f x) := by
  rw [filterMap_cons_toList, List.getLast?_append]
  cases f x <;> rfl

/-- What is taken for `a` comes from the front of its mailbox, and what is sent goes to the back. -/
theorem Atom.mailOf_of_handles {x : Atom σ} (hx : x.handles a) (hb : w.pool.boxOf a = some b)
    (hbox : (w.pool.office.box? b).isSome) :
    ((⟨w, x⟩ : Visit σ).taken a).toList ++ (x.effect w).pool.office.mail b =
      w.pool.office.mail b ++ ((⟨w, x⟩ : Visit σ).letter b).toList := by
  rw [Atom.mail_effect]
  cases x with
  | alter f => cases hx
  | put c m =>
    by_cases hc : c = b
    · simp [Visit.taken, Visit.letter, hc, hbox]
    · simp [Visit.taken, Visit.letter, hc]
  | takeMail c =>
    obtain rfl : c = a := of_decide_eq_true hx
    have hmail := Pool.mailOf_eq_of_boxOf hb
    cases hm : w.pool.office.mail b <;> simp [Visit.taken, Visit.letter, hb, hmail, hm]
  | _ => simp [Visit.taken, Visit.letter]

/-- The actor has mailbox `b` before and after, the settings are the same, and the books of the
mailbox balance. -/
structure Ledger (a : ActorRef) (b : BoxRef) (w : World σ) (vs : List (Visit σ)) (w' : World σ) :
    Prop where
  box : w'.pool.boxOf a = some b
  kept : (w'.pool.office.box? b).isSome
  config : w'.pool.config = w.pool.config
  balance : vs.filterMap (·.taken a) ++ w'.pool.mailOf a =
    w.pool.mailOf a ++ vs.filterMap (·.letter b)

namespace Act

theorem ledger_of_handles {t : Act σ α} (ht : t.All (·.handles a)) {w : World σ}
    (hb : w.pool.boxOf a = some b) (hbox : (w.pool.office.box? b).isSome) :
    Ledger a b w (t.visits w) (t.run w).2 := by
  induction t generalizing w with
  | done r => exact ⟨hb, hbox, rfl, (List.append_nil _).symm⟩
  | ask x next ih =>
    have hne : ∀ f, x ≠ .alter f := by
      rintro f rfl
      cases ht.1
    have hborn : a < w.pool.actors.size := Pool.boxOf_isSome_iff.mp (by rw [hb]; rfl)
    have hb' : (x.effect w).pool.boxOf a = some b := by
      rw [Atom.boxOf_effect]
      cases x with
      | alter f => exact absurd rfl (hne f)
      | enroll y => exact (if_neg (Nat.ne_of_lt hborn)).trans hb
      | _ => exact hb
    have hfirst := Atom.mailOf_of_handles ht.1 hb hbox
    obtain ⟨hbox', hkept, hconfig, hrest⟩ :=
      ih (x.answer w) (ht.2 _) hb' (Atom.box?_isSome_effect hne hbox)
    refine ⟨hbox', hkept, hconfig.trans (Atom.config_effect hne w), ?_⟩
    rw [Pool.mailOf_eq_of_boxOf hb'] at hrest
    rw [Pool.mailOf_eq_of_boxOf hb]
    change (⟨w, x⟩ :: visits (next (x.answer w)) (x.effect w)).filterMap (·.taken a) ++
      (run (next (x.answer w)) (x.effect w)).2.pool.mailOf a = _ ++
        (⟨w, x⟩ :: visits (next (x.answer w)) (x.effect w)).filterMap (·.letter b)
    rw [filterMap_cons_toList, filterMap_cons_toList, List.append_assoc, hrest,
      ← List.append_assoc, hfirst, List.append_assoc]

theorem actor?_interpret (hc : company.Civil) (program : Program σ α) {y : Actor σ} {w : World σ}
    (hy : w.pool.actor? a = some y) :
    ((interpret company program).run w).2.pool.actor? a = some y := by
  have hkept : ∀ {β : Type} {t : Act σ β}, t.All (·.asked) → ∀ w : World σ,
      w.pool.actor? a = some y → (t.run w).2.pool.actor? a = some y := by
    intro β t ht
    induction t with
    | done r => exact fun w hw => hw
    | ask x next ih => exact fun w hw => ih _ (ht.2 _) _ (Atom.actor?_of_asked ht.1 hw)
  exact hkept (interpret_asked hc program) w hy

end Act

/-! ## What a role finds -/

/-- The name and the ID of an actor change where it takes others, and nowhere else. -/
theorem Handles.actor? {m : Message σ.Value} {o : Outcome} (h : Handles company a b w m o w')
    (hc : company.Civil) {y : Actor σ} (hy : w.pool.actor? a = some y) :
    ∃ z, w'.pool.actor? a = some z ∧
      z.name = ((⟨m, w, o⟩ : Handling σ).newName?).getD y.name ∧
      z.id = ((⟨m, w, o⟩ : Handling σ).newId? b).or y.id := by
  cases h with
  | poison => exact ⟨y, hy, rfl, rfl⟩
  | setName name =>
    refine ⟨{ y with name }, ?_, rfl, rfl⟩
    change (w.pool.modifyActor a _).actor? a = _
    rw [Pool.actor?_modifyActor, if_pos rfl, hy]
    rfl
  | @accept _ source id accepts took rest =>
    have hnew : (⟨⟨source, .control (.setId id)⟩, w, .complete⟩ : Handling σ).newId? b = some id :=
      if_pos accepts
    refine ⟨{ y with id := some id }, ?_, rfl, by rw [hnew]; rfl⟩
    rw [took.itself, hy]
    rfl
  | @refuse source id refuses =>
    have hold : (⟨⟨source, .control (.setId id)⟩, w, .complete⟩ : Handling σ).newId? b = none :=
      if_neg refuses
    exact ⟨y, hy, rfl, by rw [hold]; rfl⟩
  | @answer _ u source value x ending actor run left rest =>
    have hu := Act.actor?_interpret hc (company.behaviour.handle x.role (w.pool.contextOf a)
      ⟨source, .user value⟩) hy
    rw [run] at hu
    refine ⟨{ y with role := ending.role }, ?_, rfl, rfl⟩
    rw [left, Pool.actor?_modifyActor, if_pos rfl, hu]
    rfl

/-- When an actor begins with a message, its name and its ID are the last that it took before, in
the same batch; or those that it had. -/
theorem Course.actor? {xs : List (Handling σ)} (h : Course company a b w xs w')
    (hc : company.Civil) {y : Actor σ} (hy : w.pool.actor? a = some y) {i : Nat} {x : Handling σ}
    (hx : xs[i]? = some x) : ∃ z, x.world.pool.actor? a = some z ∧
      z.name = ((xs.take i).filterMap (·.newName?)).getLast?.getD y.name ∧
      z.id = ((xs.take i).filterMap (·.newId? b)).getLast?.or y.id := by
  have htaken : ∀ w : World σ, ((Atom.takeMail a).effect w).pool.actor? a = w.pool.actor? a :=
    fun w => congrArg (·[a]?) (Atom.actors_effect (.takeMail a) w)
  induction h generalizing i y with
  | rest w => simp at hx
  | @stop w w' m front handles =>
    have hi := (List.getElem?_eq_some_iff.mp hx).1
    obtain rfl : i = 0 := Nat.lt_one_iff.mp hi
    simp only [List.getElem?_cons_zero, Option.some.injEq] at hx
    subst hx
    exact ⟨y, (htaken w).trans hy, rfl, rfl⟩
  | @next w u w' m o xs front handles goes later ih =>
    cases i with
    | zero =>
      simp only [List.getElem?_cons_zero, Option.some.injEq] at hx
      subst hx
      exact ⟨y, (htaken w).trans hy, rfl, rfl⟩
    | succ i =>
      obtain ⟨z, hz, hname, hid⟩ := handles.actor? hc ((htaken w).trans hy)
      obtain ⟨z', hz', hname', hid'⟩ := ih hz hx
      refine ⟨z', hz', ?_, ?_⟩
      · rw [List.take_succ_cons, getLast?_filterMap_cons, hname', hname, Option.getD_or]
      · rw [List.take_succ_cons, getLast?_filterMap_cons, hid', hid, Option.or_assoc]

/-- The same of what the role is told about its actor, in a batch of an actor that was idle. -/
theorem Course.context {xs : List (Handling σ)}
    (h : Course company a b ((Atom.claim a).effect w) xs w') (hc : company.Civil)
    (idle : w.pool.isIdle a) {i : Nat} {x : Handling σ} (hx : xs[i]? = some x) :
    (x.world.pool.contextOf a).name =
        ((xs.take i).filterMap (·.newName?)).getLast?.getD (w.pool.nameOf a) ∧
      (x.world.pool.contextOf a).id =
        ((xs.take i).filterMap (·.newId? b)).getLast?.or (w.pool.idOf a) := by
  obtain ⟨y, hy, -⟩ := Option.map_eq_some_iff.mp (Pool.isIdle_iff.mp idle)
  have hclaim : (Atom.claim a).effect w =
      w.modifyActor a fun x => { x with phase := .processing } := if_pos idle
  have hy' : ((Atom.claim a).effect w).pool.actor? a = some { y with phase := .processing } := by
    rw [hclaim]
    change (w.pool.modifyActor a _).actor? a = _
    rw [Pool.actor?_modifyActor, if_pos rfl, hy]
    rfl
  obtain ⟨z, hz, hname, hid⟩ := h.actor? hc hy' hx
  simp only [Pool.contextOf, Pool.nameOf, Pool.idOf, hz, hy, Option.map_some, Option.getD_some,
    Option.bind_some]
  exact ⟨hname, hid⟩

/-! ## The loop -/

namespace Act

/-- What a dispatch comes to, once it is known what the role does. -/
theorem run_dispatch {m : Message σ.Value} {x : Actor σ} (hx : w.pool.actor? a = some x)
    {ending : Ending σ} {u : World σ} (hrun : (interpret company
      (company.behaviour.handle x.role (w.pool.contextOf a) m)).run w = (ending, u)) :
    ((dispatch company a m).run w).1 = ending.verdict.outcome ∧
      ((dispatch company a m).run w).2.pool =
        u.pool.modifyActor a (fun x => { x with role := ending.role }) ∧
      ((dispatch company a m).run w).2.env = u.env := by
  have hfound : (Atom.dispatch a m).answer w = some (x.role, w.pool.contextOf a) := by
    change (w.pool.actor? a).map _ = _
    rw [hx]
    rfl
  have hrest : (dispatch company a m).run w =
      (afterDispatch company a (some (x.role, w.pool.contextOf a)) m).run w := by
    rw [dispatch_eq]
    change Act.run (afterDispatch company a ((Atom.dispatch a m).answer w) m) w = _
    rw [hfound]
  rw [hrest, afterDispatch, run_bind, hrun]
  obtain ⟨role, verdict⟩ := ending
  cases verdict <;> exact ⟨rfl, rfl, rfl⟩

theorem handles_of_run (hw : w.pool.Lodged) (hb : w.pool.boxOf a = some b) (m : Message σ.Value) :
    Handles company a b w m ((handleMail company a m).run w).1
      ((handleMail company a m).run w).2 := by
  obtain ⟨source, body⟩ := m
  cases body with
  | control c =>
    cases c with
    | poison => exact .poison
    | setName name => exact .setName name
    | setId id =>
      have hobeys := obeys_setId company hw hb source id
      have hcomplete :
          ((handleMail company a ⟨source, .control (.setId id)⟩).run w).1 = .complete := by
        change ((changeId a id >>= fun _ => pure Outcome.complete).run w).1 = _
        rw [run_bind, run_pure]
      rw [hcomplete]
      by_cases haccepts : w.pool.Accepts b id
      · obtain ⟨htook, hrest⟩ := hobeys.accepted haccepts
        exact .accept haccepts htook hrest
      · rw [hobeys.refused haccepts]
        exact .refuse haccepts
  | user value =>
    obtain ⟨x, hx, -⟩ := Option.map_eq_some_iff.mp hb
    obtain ⟨⟨ending, u⟩, hrun⟩ : ∃ r, (interpret company (company.behaviour.handle x.role
      (w.pool.contextOf a) ⟨source, .user value⟩)).run w = r := ⟨_, rfl⟩
    obtain ⟨hout, hpool, henv⟩ := run_dispatch hx hrun
    change Handles company a b w _ ((dispatch company a _).run w).1 ((dispatch company a _).run w).2
    rw [hout]
    exact .answer hx hrun hpool henv

/-- A message in hand is handled without another one being taken. -/
theorem handleMail_handles (hc : company.Civil) (m : Message σ.Value) :
    (handleMail company a m).All (·.handles a) := by
  have hserves : ∀ x : Atom σ, x.minds a → x.handles a :=
    fun x hx => Atom.handles_of_serves (Atom.serves_of_minds hx)
  refine handleMail_all (fun role ctx m => ?_) hserves (decide_eq_true rfl)
  exact (interpret_asked hc _).mono fun x hx => Atom.handles_of_asked hx

/-- What the loop of a drain has to show for the messages that it has handled. -/
def Sums (policy : BatchPolicy) (sum : Outcome) (n : Nat) (xs : List (Handling σ)) :
    Option Outcome → Prop
  | none => xs.length ≤ n ∧ ∃ x ∈ xs, x.outcome = .poisoned
  | some o => xs.length = n ∧ (∀ x ∈ xs, x.outcome ≠ .poisoned) ∧
      o = policy.foldAll sum (xs.map (·.outcome))

/-- These are the messages that an act takes for `a`, and it consumes them. -/
def Books (a : ActorRef) (t : Act σ α) (w : World σ) (ms : List (Message σ.Value)) : Prop :=
  (t.visits w).filterMap (·.taken a) = ms ∧ (t.visits w).filterMap (·.consumed a) = ms

/-- The message in front is taken, and it is consumed there and then or when the role gets it. -/
theorem consume_of_front (hc : company.Civil) (n : Nat) (sum : Outcome) {m : Message σ.Value}
    (hm : (w.pool.mailOf a).head? = some m) {o : Outcome} {u : World σ}
    (hr : (handleMail company a m).run ((Atom.takeMail a).effect w) = (o, u))
    {ms : List (Message σ.Value)} (hbooks : Books a (afterMail company a n sum o) u ms) :
    (consume company a (n + 1) sum).run w = (afterMail company a n sum o).run u ∧
      Books a (consume company a (n + 1) sum) w (m :: ms) := by
  have hanswer : (Atom.takeMail a).answer w = some m := hm
  have htake : (⟨w, .takeMail a⟩ : Visit σ).taken a = some m := by
    simp [Visit.taken, hm]
  have honce : ((⟨w, .takeMail a⟩ : Visit σ).consumed a).toList ++
      (if m.isControl then [] else [m]) = [m] := by
    cases hcontrol : m.isControl <;> simp [Visit.consumed, hm, Option.filter, hcontrol]
  obtain ⟨htaken, hconsumed⟩ := handleMail_books (a := a) hc m ((Atom.takeMail a).effect w)
  rw [consume_succ, Books]
  simp only [run, visits, hanswer]
  rw [run_bind, visits_bind, hr, filterMap_cons_toList, filterMap_cons_toList,
    List.filterMap_append, List.filterMap_append, htaken, hconsumed, htake, hbooks.1, hbooks.2]
  exact ⟨rfl, rfl, by rw [← List.append_assoc, honce]; rfl⟩

theorem Sums.cons {policy : BatchPolicy} {sum : Outcome} {n : Nat} {x : Handling σ}
    {xs : List (Handling σ)} {r : Option Outcome} (hx : x.outcome ≠ .poisoned)
    (h : Sums policy (policy.fold sum x.outcome) n xs r) : Sums policy sum (n + 1) (x :: xs) r := by
  cases r with
  | none =>
    obtain ⟨hlength, y, hy, hpoisoned⟩ := h
    exact ⟨Nat.succ_le_succ hlength, y, List.mem_cons_of_mem x hy, hpoisoned⟩
  | some o =>
    obtain ⟨hlength, hall, hsum⟩ := h
    refine ⟨congrArg (· + 1) hlength, fun y hy => ?_, hsum⟩
    rcases List.mem_cons.mp hy with rfl | hy
    · exact hx
    · exact hall y hy

/-- The loop follows a course: what it takes is consumed, and it goes on until it has handled as
many messages as it is to handle or one has stopped the actor. -/
theorem consume_course (hc : company.Civil) (hp : company.Postal) {n : Nat} {sum : Outcome}
    {h : List (Visit σ)} {w : World σ} (hw : Papers (some a) h w) (hb : w.pool.boxOf a = some b)
    (hn : n ≤ (w.pool.mailOf a).length) : ∃ xs u, Course company a b w xs u ∧
      Books a (consume company a n sum) w (xs.map (·.message)) ∧
      Sums w.pool.config.batchPolicy sum n xs ((consume company a n sum).run w).1 := by
  induction n generalizing sum h w with
  | zero =>
    have hnone : ∀ x ∈ ([] : List (Handling σ)), x.outcome ≠ .poisoned :=
      fun x hx => absurd hx List.not_mem_nil
    exact ⟨[], w, .rest w, ⟨rfl, rfl⟩, rfl, hnone, rfl⟩
  | succ n ih =>
    obtain ⟨m, hfront⟩ : ∃ m, (w.pool.mailOf a).head? = some m := by
      cases hmail : w.pool.mailOf a with
      | nil => rw [hmail] at hn; cases hn
      | cons m rest => exact ⟨m, rfl⟩
    have hs := papers_upkeep hp
    have hpapers := hs.plain (some a) (.takeMail a) rfl h w hw
    change Papers (some a) _ ((Atom.takeMail a).effect w) at hpapers
    have hlodged : ((Atom.takeMail a).effect w).pool.Lodged := ⟨hpapers.1.opened, hpapers.1.home⟩
    have hbox := (Atom.boxOf_effect (.takeMail a) w a).trans hb
    have hhandles : Handles company a b _ m _ _ := handles_of_run hlodged hbox m
    have hnext := hs.handleMail a m _ _ hpapers
    obtain ⟨hbox', -, hconfig, hbalance⟩ := ledger_of_handles (handleMail_handles hc m) hbox
      (Office.box?_isSome_of_isOwned _ (hpapers.1.home a b hbox))
    rw [(handleMail_books hc m _).1, List.nil_append] at hbalance
    obtain ⟨⟨o, u⟩, hr⟩ : ∃ r, (handleMail company a m).run ((Atom.takeMail a).effect w) = r :=
      ⟨_, rfl⟩
    rw [hr] at hhandles hnext hbox' hconfig hbalance
    by_cases ho : o = .poisoned
    · subst ho
      have hstop : (afterMail company a n sum .poisoned).All (·.reads = false) :=
        Dialogue.all_bind (all_makeSick (P := fun x => x.reads = false) rfl (fun _ => rfl) rfl rfl
          fun _ => rfl) fun _ => trivial
      have hnone : ((afterMail company a n sum .poisoned).run u).1 = none :=
        congrArg Prod.fst (run_bind (makeSick a) (fun _ => pure none) u)
      obtain ⟨hrun, hbooks⟩ := consume_of_front hc n sum hfront hr (untouched_of_not_reads hstop u)
      refine ⟨[⟨m, (Atom.takeMail a).effect w, .poisoned⟩], u, .stop hfront hhandles, hbooks, ?_⟩
      rw [hrun, hnone]
      exact ⟨Nat.succ_pos n, _, List.mem_singleton_self _, rfl⟩
    · have hlook : Papers (some a) _ u := hs.plain (some a) .look rfl _ _ hnext
      have hleft : n ≤ (u.pool.mailOf a).length := by
        have htail : ((Atom.takeMail a).effect w).pool.mailOf a = (w.pool.mailOf a).tail := by
          rw [Pool.mailOf_eq_of_boxOf hbox, Atom.mail_effect, Pool.mailOf_eq_of_boxOf hb]
          exact if_pos hb
        rw [hbalance, htail, List.length_append, List.length_tail]
        omega
      obtain ⟨xs, w', hcourse, hbooks, hsums⟩ :=
        @ih (u.pool.config.batchPolicy.fold sum o) _ u hlook hbox' hleft
      have hgoes : Books a (afterMail company a n sum o) u (xs.map (·.message)) := by
        rw [afterMail_of_ne ho]
        exact hbooks
      obtain ⟨hrun, hbooks⟩ := consume_of_front hc n sum hfront hr hgoes
      refine ⟨⟨m, (Atom.takeMail a).effect w, o⟩ :: xs, w', .next hfront hhandles ho hcourse,
        hbooks, ?_⟩
      have hsettings : u.pool.config = w.pool.config :=
        hconfig.trans (Atom.config_effect (x := .takeMail a) nofun w)
      rw [hsettings] at hsums
      rw [hrun, afterMail_of_ne ho]
      change Sums _ sum (n + 1) _
        ((consume company a n (u.pool.config.batchPolicy.fold sum o)).run u).1
      rw [hsettings]
      exact hsums.cons (x := ⟨m, (Atom.takeMail a).effect w, o⟩) ho

end Act

/-! ## A whole drain -/

/-- Of the outcomes of a batch other than `complete`, the one that the policy reports. -/
def BatchPolicy.choice (policy : BatchPolicy) (os : List Outcome) : Outcome :=
  match policy with
  | lastNonComplete => (os.filter (· ≠ .complete)).getLast?.getD .complete
  | firstNonComplete => (os.filter (· ≠ .complete)).head?.getD .complete

theorem BatchPolicy.foldAll_eq_choice (policy : BatchPolicy) (os : List Outcome) :
    policy.foldAll .complete os = policy.choice os := by
  cases policy with
  | lastNonComplete => exact foldAll_last os
  | firstNonComplete => exact foldAll_first os

/-- What a drain of `a` comes to that begins in `w`, where the mailbox `b` of `a` is not empty:
`xs` are the messages that it handles, `vs` its accesses, `r` its outcome and the world after. -/
structure Drained (company : Company σ) (a : ActorRef) (b : BoxRef) (w : World σ)
    (xs : List (Handling σ)) (vs : List (Visit σ)) (r : Outcome × World σ) : Prop where
  course : ∃ u, Course company a b ((Atom.claim a).effect w) xs u
  /-- The messages in front of the mailbox are taken, and all that are taken are consumed. -/
  front : xs.map (·.message) = (w.pool.mailOf a).take xs.length ∧
    vs.filterMap (·.taken a) = xs.map (·.message) ∧ vs.filterMap (·.consumed a) = xs.map (·.message)
  /-- A message that stops the actor is the last. -/
  last : ∀ i x, xs[i]? = some x → x.outcome = .poisoned → xs.length = i + 1
  /-- The actor goes by the last name and the last ID that it took, or by those that it had. -/
  context : ∀ i x, xs[i]? = some x →
    (x.world.pool.contextOf a).name =
        ((xs.take i).filterMap (·.newName?)).getLast?.getD (w.pool.nameOf a) ∧
      (x.world.pool.contextOf a).id =
        ((xs.take i).filterMap (·.newId? b)).getLast?.or (w.pool.idOf a)
  stopped : (∃ x ∈ xs, x.outcome = .poisoned) → r.1 = .poisoned ∧ r.2.pool.isSick a ∧
    r.2.pool.idOf a = none ∧ (∀ c, (c, b) ∉ r.2.pool.office.entries) ∧
      r.2.pool.mailOf a = (w.pool.mailOf a).drop xs.length ++ vs.filterMap (·.letter b)
  finished : (∀ x ∈ xs, x.outcome ≠ .poisoned) → xs.length = (w.pool.mailOf a).length ∧
    r.1 = w.pool.config.batchPolicy.choice (xs.map (·.outcome)) ∧ r.2.pool.isIdle a ∧
      r.2.pool.mailOf a = vs.filterMap (·.letter b)

namespace Act

/-- The drain of an actor that has been taken and has mail. -/
theorem drain_course (hc : company.Civil) (hp : company.Postal) {h : List (Visit σ)}
    (hw : Papers (some a) h w) (hb : w.pool.boxOf a = some b)
    (hmail : (w.pool.mailOf a).length ≠ 0) : ∃ xs u, Course company a b w xs u ∧
      Books a (drain company a) w (xs.map (·.message)) ∧
      Sums w.pool.config.batchPolicy .complete (w.pool.mailOf a).length xs
        (if ((drain company a).run w).1 = .poisoned then none
          else some ((drain company a).run w).1) := by
  obtain ⟨xs, u, hcourse, hbooks, hsums⟩ : ∃ xs u, Course company a b w xs u ∧
      Books a (consume company a (w.pool.mailOf a).length .complete) w (xs.map (·.message)) ∧
      Sums _ .complete _ xs ((consume company a (w.pool.mailOf a).length .complete).run w).1 :=
    consume_course hc hp hw hb (Nat.le_refl _)
  obtain ⟨hrun, hvisits⟩ := drain_of_mail company hmail
  refine ⟨xs, u, hcourse, ?_, ?_⟩
  · have hlast : ∀ o, (afterBatch a (w.pool.mailOf a).length o : Act σ Outcome).All
        (·.reads = false) := by
      intro o
      cases o with
      | none => trivial
      | some o => exact ⟨rfl, fun _ => ⟨rfl, fun _ => trivial⟩⟩
    have hnothing := fun o u => untouched_of_not_reads (a := a) (hlast o) u
    have hcount := Visit.untouched_of_not_reads (v := ⟨w, .countMail a⟩) rfl a
    rw [Books, hvisits, filterMap_cons_toList, filterMap_cons_toList, hcount.1, hcount.2,
      visits_bind, List.filterMap_append, List.filterMap_append, hbooks.1, hbooks.2, (hnothing _ _).1,
      (hnothing _ _).2, List.append_nil]
    exact ⟨rfl, rfl⟩
  · rw [hrun, run_bind]
    cases hend : ((consume company a (w.pool.mailOf a).length .complete).run w).1 with
    | none =>
      rw [hend] at hsums
      exact hsums
    | some o =>
      have hgoes := @consume_ends _ company a (w.pool.mailOf a).length .complete (by decide) w
      rw [hend] at hsums hgoes
      change Sums _ _ _ xs (if o = .poisoned then none else some o)
      rw [if_neg hgoes]
      exact hsums

/-- Taking an actor and letting it go again has no part in what the drain does. -/
theorem process_run (idle : w.pool.isIdle a) : ∃ u,
    ((process company a).run w).1 = ((drain company a).run ((Atom.claim a).effect w)).1 ∧
      ((process company a).run w).2 =
        (Atom.finish a ((drain company a).run ((Atom.claim a).effect w)).1).effect u ∧
      ∀ ms, Books a (drain company a) ((Atom.claim a).effect w) ms →
        Books a (process company a) w ms := by
  have hturn : process company a = turn company .deferred a := rfl
  obtain ⟨-, u, rfl, hout, hend, hvisits⟩ :=
    afterClaim_run company .deferred a ((Atom.claim a).effect w)
  rw [hturn, turn_run idle]
  refine ⟨u, hout, hend, fun ms hbooks => ?_⟩
  obtain ⟨hclaim, hclaim'⟩ := Visit.untouched_of_not_reads (v := ⟨w, .claim a⟩) rfl a
  rw [Books, turn_visits idle, filterMap_cons_toList, filterMap_cons_toList, hclaim, hclaim',
    hvisits _ fun v hv => (Visit.untouched_of_not_reads hv a).1,
    hvisits _ fun v hv => (Visit.untouched_of_not_reads hv a).2]
  exact hbooks

theorem process_drained (hc : company.Civil) (hp : company.Postal) (hw : w.pool.InOrder none)
    (idle : w.pool.isIdle a) (hb : w.pool.boxOf a = some b)
    (hmail : w.pool.mailOf a ≠ []) :
    ∃ xs, Drained company a b w xs ((process company a).visits w) ((process company a).run w) := by
  have hs := papers_upkeep hp
  have hpapers : Papers none [] w := ⟨hw, Observed.start hw.agrees⟩
  have hclaimed : Papers (some a) [⟨w, .claim a⟩] ((Atom.claim a).effect w) := by
    have hkept := hs.claim a [] w hpapers
    change Papers (if w.pool.isIdle a then some a else none) _ _ at hkept
    rwa [if_pos idle] at hkept
  have hb' := (Atom.boxOf_effect (.claim a) w a).trans hb
  have hmail' : ((Atom.claim a).effect w).pool.mailOf a = w.pool.mailOf a := by
    rw [Pool.mailOf_eq_of_boxOf hb', Pool.mailOf_eq_of_boxOf hb, Atom.mail_effect]
  have hsettings := Atom.config_effect (x := .claim a) nofun w
  obtain ⟨xs, u, hcourse, hbooks, hsums⟩ := drain_course hc hp hclaimed hb'
    (by rw [hmail']; exact fun hnil => hmail (List.length_eq_zero_iff.mp hnil))
  rw [hmail', hsettings] at hsums
  obtain ⟨v, hout, hend, hprocess⟩ := @process_run _ company _ _ idle
  rw [← hout] at hsums
  obtain ⟨htaken, hconsumed⟩ := hprocess _ hbooks
  have hledger := ledger_of_handles (turn_handles hc .deferred a) hb
    (Office.box?_isSome_of_isOwned _ (hw.home a b hb))
  change Ledger a b w ((process company a).visits w) ((process company a).run w).2 at hledger
  have hlength : xs.length ≤ (w.pool.mailOf a).length := by
    split at hsums
    · exact hsums.1
    · exact Nat.le_of_eq hsums.1
  obtain ⟨hfront, hleft⟩ : xs.map (·.message) = (w.pool.mailOf a).take xs.length ∧
      ((process company a).run w).2.pool.mailOf a = (w.pool.mailOf a).drop xs.length ++
        ((process company a).visits w).filterMap (·.letter b) := by
    refine List.append_inj ?_ (by rw [List.length_map, List.length_take, Nat.min_eq_left hlength])
    rw [← htaken, hledger.balance, ← List.append_assoc, List.take_append_drop]
  refine ⟨xs, ⟨u, hcourse⟩, ⟨hfront, htaken, hconsumed⟩, fun i x => hcourse.length_of_poisoned,
    fun i x hx => ?_, fun hpoisoned => ?_, fun hnone => ?_⟩
  · exact hcourse.context hc idle hx
  · have ho : ((process company a).run w).1 = .poisoned := by
      refine Decidable.byContradiction fun ho => ?_
      rw [if_neg ho] at hsums
      obtain ⟨x, hx, hx'⟩ := hpoisoned
      exact hsums.2.1 x hx hx'
    have hfinal : ((process company a).run w).2.pool.InOrder none := (hs.process a [] w hpapers).1
    have hid : ((process company a).run w).2.pool.idOf a = none := turn_ends .deferred a w ho
    have hsick := (hfinal.stopped a (by rw [hledger.box]; rfl)).mp hid
    exact ⟨ho, hsick, hid, fun c => hfinal.detached a b c hledger.box hid, hleft⟩
  · have ho : ((process company a).run w).1 ≠ .poisoned := by
      intro ho
      rw [if_pos ho] at hsums
      obtain ⟨x, hx, hx'⟩ := hsums.2
      exact hnone x hx hx'
    rw [if_neg ho] at hsums
    obtain ⟨hall, -, hsum⟩ := hsums
    refine ⟨hall, hsum.trans (BatchPolicy.foldAll_eq_choice _ _), ?_, ?_⟩
    · have hbox := hledger.box
      rw [hend, ← hout] at hbox
      rw [Pool.isIdle_iff, hend, ← hout]
      exact phaseOf_finish ho (by rw [hbox]; rfl)
    · rw [hleft, hall, List.drop_length, List.nil_append]

end Act

open Act

/-- Whenever an actor that is idle is taken for a drain, by whatever routine: with an empty mailbox
nothing happens. Otherwise its messages are handled one after another, the last of them being the
first that stops the actor, if there is one; then the actor has stopped for good, and what is left
in the mailbox are the other messages and what was sent meanwhile. If none stops it all of them are
handled, what was sent meanwhile is left, and the outcome is the one that the policy picks. -/
theorem drain_keeps_to_course (company : Company σ) (hc : company.Civil) (hp : company.Postal)
    (config : Config) (env : σ.Env) (rs : List (Routine σ)) (v : Visit σ)
    (hv : v ∈ (Routine.all company rs).visits (.empty config env)) (a : ActorRef)
    (hclaim : v.atom = .claim a) (idle : v.world.pool.isIdle a) :
    (v.world.pool.mailOf a = [] → (process company a).run v.world = (.skipped, v.world)) ∧
      (v.world.pool.mailOf a ≠ [] → ∃ b xs, v.world.pool.boxOf a = some b ∧
        Drained company a b v.world xs ((process company a).visits v.world)
          ((process company a).run v.world)) := by
  refine ⟨fun hmail => ?_, fun hmail => ?_⟩
  · have hwork : v.world.pool.needsProcessing a = false := by
      rw [Pool.needsProcessing, idle, hmail]
      rfl
    exact turn_of_no_work company .deferred hwork fun hne => absurd rfl hne
  · obtain ⟨y, hy, -⟩ := Option.map_eq_some_iff.mp (Pool.isIdle_iff.mp idle)
    have hb : v.world.pool.boxOf a = some y.box := by
      rw [Pool.boxOf, hy]
      rfl
    have horder := inOrder_of_claim hc hp hv (by rw [hclaim]; rfl)
    obtain ⟨xs, hdrained⟩ := process_drained hc hp horder idle hb hmail
    exact ⟨y.box, xs, hb, hdrained⟩

namespace Courier

/-- A courier gets another name, a letter for itself, another ID, a letter that stops it and one
more; then it is drained. -/
def batch : List (Routine signature) :=
  [register, .serve (.ask (.post ⟨1⟩ (.ofControl (.setName "postman"))) fun _ => .done ()),
    send ⟨1⟩ [⟨1⟩], .serve (.ask (.post ⟨1⟩ (.ofControl (.setId ⟨9⟩))) fun _ => .done ()),
    send ⟨1⟩ [], send ⟨1⟩ [⟨1⟩], .drain 0]

/-- The moment at which the courier is taken. -/
def taken : Visit signature :=
  ((Routine.all Courier.company batch).visits (.empty {} ())).get ⟨21, by decide +kernel⟩

end Courier

/-- The letter that stops the courier is the fourth of five. The fifth is left, and so is the one
that the courier has sent to itself. -/
theorem batch_keeps_to_course : ∃ b xs, Courier.taken.world.pool.boxOf 0 = some b ∧
    Drained Courier.company 0 b Courier.taken.world xs
      ((process Courier.company 0).visits Courier.taken.world)
      ((process Courier.company 0).run Courier.taken.world) ∧
    (Courier.taken.world.pool.mailOf 0).length = 5 ∧ xs.length = 4 ∧
    (((process Courier.company 0).run Courier.taken.world).2.pool.mailOf 0).length = 2 := by
  have hmail : (Courier.taken.world.pool.mailOf 0).length = 5 := by decide +kernel
  obtain ⟨b, xs, hb, hdrained⟩ := (drain_keeps_to_course Courier.company nofun nofun {} ()
    Courier.batch Courier.taken (List.get_mem _ _) 0 rfl (by decide +kernel)).2
      (List.ne_nil_of_length_pos (by rw [hmail]; decide))
  have htaken : (((process Courier.company 0).visits Courier.taken.world).filterMap
      (·.taken 0)).length = 4 := by
    decide +kernel
  rw [hdrained.front.2.1, List.length_map] at htaken
  exact ⟨b, xs, hb, hdrained, hmail, htaken, by decide +kernel⟩

end ActorSystem
