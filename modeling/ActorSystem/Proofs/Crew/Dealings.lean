import ActorSystem.Proofs.Act.Patrols
import ActorSystem.Proofs.Act.Service
import ActorSystem.Proofs.Crew.Trails

/-!
# What threads do for actors

A thread that takes a message out of an actor's mailbox does all that this message asks for before
it turns to anything else; other threads come in between, but none of them can do it for this
thread. So the past of a crew tells what every thread is in the midst of, and what has been done
for every actor, message by message. The `Logbook` is this account of the past.

`Pursues ok s t` says that the act `t`, begun by a thread in the midst of `s`, does what is to be
done for the messages that it takes, and makes accesses that are `ok` apart from that.

* `act_pursues`: every routine does so.
* `Minding.step`: so every thread of a crew does.
-/

namespace ActorSystem

variable {σ : Signature} {α β : Type} {company : Company σ}

/-! ## Dealing with a message -/

namespace Atom

/-- What a drain of `a` does by itself for a message that it has taken. -/
def tends (a : ActorRef) : Atom σ → Bool
  | dispatch c _ | sicken c | dropId c | revoke (.actor c) _ => c = a
  | x => x.minds a

theorem tends_of_minds {a : ActorRef} {x : Atom σ} (hx : x.minds a) : x.tends a := by
  cases x <;> first | exact hx | cases hx

end Atom

namespace Act

/-- Stops the actor if it has come to that. -/
def conclude (a : ActorRef) : Outcome → Act σ Outcome
  | .poisoned => do
    makeSick a
    return .poisoned
  | o => return o

def deal (company : Company σ) (a : ActorRef) (m : Message σ.Value) : Act σ Outcome := do
  conclude a (← handleMail company a m)

/-- What is left of a batch when a message has been dealt with. -/
def afterDeal (company : Company σ) (a : ActorRef) (n : Nat) (sum : Outcome) :
    Outcome → Act σ (Option Outcome)
  | .poisoned => return none
  | o => do consume company a n ((← pool).config.batchPolicy.fold sum o)

theorem handleMail_afterMail (a : ActorRef) (n : Nat) (sum : Outcome) (m : Message σ.Value) :
    handleMail company a m >>= afterMail company a n sum =
      deal company a m >>= afterDeal company a n sum := by
  refine Eq.trans ?_ (Dialogue.bind_assoc (handleMail company a m) _ _).symm
  refine congrArg (handleMail company a m).bind (funext fun o => ?_)
  cases o with
  | poisoned =>
    exact (Dialogue.bind_assoc (makeSick a) (fun _ => pure .poisoned)
      (afterDeal company a n sum)).symm
  | skipped | complete | error => rfl

/-- There is something to be done for every message. -/
theorem deal_asks (company : Company σ) (a : ActorRef) (m : Message σ.Value) :
    ∃ x next, deal company a m = .ask x next := by
  obtain ⟨source, body⟩ := m
  cases body with
  | user value => exact ⟨_, _, rfl⟩
  | control c => cases c <;> exact ⟨_, _, rfl⟩

theorem deal_all {P : Atom σ → Prop} {a : ActorRef}
    (hrole : ∀ role ctx m, (interpret company (company.behaviour.handle role ctx m)).All P)
    (htends : ∀ x : Atom σ, x.tends a → P x) (m : Message σ.Value) :
    (deal company a m).All P := by
  have hself : ∀ {x : Atom σ}, x.tends a → P x := fun {x} hx => htends x hx
  have hmail : (handleMail company a m).All P :=
    handleMail_all hrole (fun _ hx => hself (Atom.tends_of_minds hx)) (hself (decide_eq_true rfl))
  refine Dialogue.all_bind hmail fun o => ?_
  cases o with
  | poisoned =>
    have hsick : (makeSick a).All P := by
      refine all_makeSick (hself rfl) (fun _ => hself rfl) ?_ ?_ fun _ => ?_ <;>
        exact hself (decide_eq_true rfl)
    exact Dialogue.all_bind hsick fun _ => trivial
  | skipped | complete | error => trivial

end Act

/-! ## The account of the past -/

/-- A message that was taken for an actor, all the accesses that were made to deal with it, and
what it came to. -/
structure Dealing (σ : Signature) where
  message : Message σ.Value
  visits : List (Visit σ)
  outcome : Outcome

/-- What has been done for an actor. -/
structure Dossier (σ : Signature) where
  closed : List (Dealing σ) := []
  /-- The message that is being dealt with, and the accesses made for it so far. -/
  current : Option (Message σ.Value × List (Visit σ)) := none

namespace Dossier

def opened (d : Dossier σ) (m : Message σ.Value) : Dossier σ := { d with current := some (m, []) }

def record (d : Dossier σ) (v : Visit σ) : Dossier σ :=
  { d with current := d.current.map fun x => (x.1, x.2 ++ [v]) }

def close (d : Dossier σ) (o : Outcome) : Dossier σ where
  closed := d.closed ++ d.current.toList.map fun x => ⟨x.1, x.2, o⟩

/-- After another access this is what there is still to do. -/
def after (d : Dossier σ) (v : Visit σ) : Act σ Outcome → Dossier σ
  | .done o => (d.record v).close o
  | .ask _ _ => d.record v

/-- The messages that were taken, and all that was done for them. -/
def messages (d : Dossier σ) : List (Message σ.Value) :=
  d.closed.map (·.message) ++ d.current.toList.map (·.1)

def visits (d : Dossier σ) : List (Visit σ) :=
  d.closed.flatMap (·.visits) ++ d.current.toList.flatMap (·.2)

theorem messages_opened {d : Dossier σ} (hd : d.current = none) (m : Message σ.Value) :
    (d.opened m).messages = d.messages ++ [m] := by
  simp [messages, opened, hd]

theorem visits_opened {d : Dossier σ} (hd : d.current = none) (m : Message σ.Value) :
    (d.opened m).visits = d.visits := by
  simp [visits, opened, hd]

theorem messages_after (d : Dossier σ) (v : Visit σ) (rest : Act σ Outcome) :
    (d.after v rest).messages = d.messages := by
  cases rest <;> cases hd : d.current <;> simp [after, messages, record, close, hd]

theorem visits_after {d : Dossier σ} (hd : d.current.isSome) (v : Visit σ) (rest : Act σ Outcome) :
    (d.after v rest).visits = d.visits ++ [v] := by
  obtain ⟨x, hx⟩ := Option.isSome_iff_exists.mp hd
  cases rest <;> simp [after, visits, record, close, hx]

end Dossier

/-- What a thread is in the midst of. -/
inductive Midst (σ : Signature) where
  | free
  /-- It has taken a message for actor `a`, and has this still to do for it. -/
  | dealing (a : ActorRef) (rest : Act σ Outcome)

namespace Midst

def actor? : Midst σ → Option ActorRef
  | free => none
  | dealing a _ => some a

/-- What a thread is in the midst of when it has this to do for actor `a`. -/
def having (a : ActorRef) : Act σ Outcome → Midst σ
  | .done _ => free
  | .ask x next => dealing a (.ask x next)

end Midst

structure Logbook (σ : Signature) where
  midst : ThreadId → Midst σ := fun _ => .free
  dossier : ActorRef → Dossier σ := fun _ => {}

namespace Logbook

def opened (company : Company σ) (l : Logbook σ) (i : ThreadId) (a : ActorRef)
    (m : Message σ.Value) : Logbook σ where
  midst := assign l.midst i (.dealing a (Act.deal company a m))
  dossier := assign l.dossier a ((l.dossier a).opened m)

/-- After access `v` for actor `a` this is what thread `i` has still to do. -/
def advanced (l : Logbook σ) (i : ThreadId) (a : ActorRef) (v : Visit σ) (rest : Act σ Outcome) :
    Logbook σ where
  midst := assign l.midst i (.having a rest)
  dossier := assign l.dossier a ((l.dossier a).after v rest)

/-- Enters an access. -/
def enter (company : Company σ) (l : Logbook σ) (e : ThreadId × Visit σ) : Logbook σ :=
  match l.midst e.1, e.2 with
  | .free, ⟨w, .takeMail a⟩ => (w.pool.mailOf a).head?.elim l (l.opened company e.1 a)
  | .free, _ => l
  | .dealing a (.ask x next), v => l.advanced e.1 a v (next (x.answer v.world))
  | .dealing _ (.done _), _ => l

end Logbook

namespace Crew

variable {c c' : Crew σ}

def logbook (company : Company σ) (c : Crew σ) : Logbook σ :=
  c.past.foldl (Logbook.enter company) {}

def midst (company : Company σ) (c : Crew σ) (i : ThreadId) : Midst σ := (c.logbook company).midst i

def dossier (company : Company σ) (c : Crew σ) (a : ActorRef) : Dossier σ :=
  (c.logbook company).dossier a

theorem logbook_of_past (hp : c'.past = c.past) : c'.logbook company = c.logbook company := by
  rw [logbook, hp, logbook]

theorem logbook_snoc {e : ThreadId × Visit σ} (hp : c'.past = c.past ++ [e]) :
    c'.logbook company = (c.logbook company).enter company e := by
  rw [logbook, hp, List.foldl_append]
  rfl

theorem midst_of_logbook (h : c'.logbook company = c.logbook company) :
    c'.midst company = c.midst company := congrArg Logbook.midst h

theorem dossier_of_logbook (h : c'.logbook company = c.logbook company) :
    c'.dossier company = c.dossier company := congrArg Logbook.dossier h

section

variable {i : ThreadId} {a : ActorRef} {m : Message σ.Value} {v : Visit σ} {rest : Act σ Outcome}

theorem midst_of_opened (h : c'.logbook company = (c.logbook company).opened company i a m) :
    c'.midst company = assign (c.midst company) i (.dealing a (Act.deal company a m)) :=
  congrArg Logbook.midst h

theorem dossier_of_opened (h : c'.logbook company = (c.logbook company).opened company i a m) :
    c'.dossier company = assign (c.dossier company) a ((c.dossier company a).opened m) :=
  congrArg Logbook.dossier h

theorem midst_of_advanced (h : c'.logbook company = (c.logbook company).advanced i a v rest) :
    c'.midst company = assign (c.midst company) i (.having a rest) := congrArg Logbook.midst h

theorem dossier_of_advanced (h : c'.logbook company = (c.logbook company).advanced i a v rest) :
    c'.dossier company = assign (c.dossier company) a ((c.dossier company a).after v rest) :=
  congrArg Logbook.dossier h

end

end Crew

/-! ## Acts that do what is to be done -/

def Midst.allows (ok : Atom σ → Prop) : Midst σ → Atom σ → Prop
  | free, x => ok x
  | dealing _ (.ask y _), x => x = y
  | dealing _ (.done _), _ => False

/-- What a thread is in the midst of after another access. -/
def Midst.after (company : Company σ) : Midst σ → Visit σ → Midst σ
  | free, ⟨w, .takeMail a⟩ =>
    (w.pool.mailOf a).head?.elim free fun m => .dealing a (Act.deal company a m)
  | dealing a (.ask x next), v => .having a (next (x.answer v.world))
  | s, _ => s

def Pursues (company : Company σ) (ok : Atom σ → Prop) : Midst σ → Act σ α → Prop
  | s, .done _ => s = .free
  | s, .ask x next =>
    s.allows ok x ∧ ∀ w, Pursues company ok (s.after company ⟨w, x⟩) (next (x.answer w))

namespace Pursues

variable {ok : Atom σ → Prop} {s : Midst σ}

theorem bind {t : Act σ α} {f : α → Act σ β} (ht : Pursues company ok s t)
    (hf : ∀ a, Pursues company ok .free (f a)) : Pursues company ok s (t >>= f) := by
  induction t generalizing s with
  | done a =>
    obtain rfl : s = .free := ht
    exact hf a
  | ask x next ih => exact ⟨ht.1, fun w => ih _ (ht.2 w)⟩

theorem of_all {t : Act σ α} (ht : t.All fun x => ok x ∧ ∀ a, x ≠ .takeMail a) :
    Pursues company ok .free t := by
  induction t with
  | done a => rfl
  | ask x next ih =>
    obtain ⟨⟨hx, hne⟩, hnext⟩ := ht
    refine ⟨hx, fun w => ?_⟩
    have hfree : Midst.free.after company ⟨w, x⟩ = .free := by
      cases x with
      | takeMail a => exact absurd rfl (hne a)
      | _ => rfl
    rw [hfree]
    exact ih _ (hnext _)

/-- A thread that has something to do for an actor does it. -/
theorem deal {a : ActorRef} {t : Act σ Outcome} {f : Outcome → Act σ β}
    (hf : ∀ o, Pursues company ok .free (f o)) :
    Pursues company ok (.having a t) (t >>= f) := by
  induction t with
  | done o => exact hf o
  | ask x next ih => exact ⟨rfl, fun w => ih (x.answer w)⟩

end Pursues

/-- What a routine does apart from dealing with messages. -/
def Atom.aside (drains : Bool) (x : Atom σ) : Prop :=
  if drains then x.clerical ∨ ∃ a, x = .takeMail a else x.asked

theorem Atom.ne_dispatch_of_aside {drains : Bool} {x : Atom σ} (hx : x.aside drains)
    (a : ActorRef) (m : Message σ.Value) : x ≠ .dispatch a m := by
  rintro rfl
  cases drains with
  | false => cases hx
  | true => rcases hx with hx | ⟨b, hx⟩ <;> cases hx

namespace Act

theorem consume_pursues (a : ActorRef) (n : Nat) (sum : Outcome) :
    Pursues company (Atom.aside true) .free (consume company a n sum) := by
  induction n generalizing sum with
  | zero => rfl
  | succ n ih =>
    rw [consume_succ]
    refine ⟨.inr ⟨a, rfl⟩, fun w => ?_⟩
    simp only [Atom.answer, Midst.after]
    cases (w.pool.mailOf a).head? with
    | none => rfl
    | some m =>
      dsimp only
      rw [handleMail_afterMail]
      have hrest : ∀ o, Pursues company (Atom.aside true) .free (afterDeal company a n sum o) := by
        intro o
        cases o with
        | poisoned => rfl
        | skipped | complete | error => exact ⟨.inl rfl, fun _ => ih _⟩
      obtain ⟨x, next, hask⟩ := deal_asks company a m
      have hdeal := Pursues.deal (a := a) (t := deal company a m) hrest
      rw [hask] at hdeal
      rw [Option.elim_some, hask]
      exact hdeal

theorem pursues_of_patrols {t : Act σ α} (ht : Patrols company t) :
    Pursues company (Atom.aside true) .free t := by
  induction ht with
  | pure a => rfl
  | bind _ _ iht ihf => exact iht.bind ihf
  | access x hx =>
    refine Pursues.of_all ⟨⟨.inl hx, fun a => ?_⟩, fun _ => trivial⟩
    rintro rfl
    cases hx
  | batch a n sum => exact consume_pursues a n sum

theorem pursues_of_asked {t : Act σ α} (ht : t.All (·.asked)) :
    Pursues company (Atom.aside false) .free t := by
  refine Pursues.of_all (ht.mono fun x hx => ⟨hx, fun a => ?_⟩)
  rintro rfl
  cases hx

theorem act_pursues (hc : company.Civil) (r : Routine σ) :
    Pursues company (Atom.aside r.drains) .free (r.act company) := by
  cases r with
  | serve program =>
    exact pursues_of_asked (Dialogue.all_bind (interpret_asked hc program) fun _ => trivial)
  | slip a m =>
    refine (pursues_of_asked (t := pool) ⟨rfl, fun _ => trivial⟩).bind fun p => ?_
    split
    · exact pursues_of_asked ⟨rfl, fun _ => trivial⟩
    · rfl
  | drain | drainUnlocked | sweep => exact pursues_of_patrols (act_patrols rfl)

end Act

end ActorSystem
