import Mathlib.Data.List.DropRight
import Mathlib.Data.List.Perm.Basic
import ActorSystem.Proofs.Crew.Lineages
import ActorSystem.Proofs.Roles.Staff

/-!
# Counters

A counter adds up what it is told to add. The threads that drain it may take its mail in batches of
any size, and other threads may work beside them; the total that a report gets is what the commands
before it have made of the start value, in the order in which they were taken.

* `Counter.came`: all that a counter does with a message.
* `Counter.toInt_tally`: the total in closed form.
* `counter_tells_total`: what becomes of every message to a counter.
-/

namespace ActorSystem

open Ensemble

/-! ## Totals -/

namespace CounterCommand

/-- What the command adds. -/
def added : CounterCommand → Int
  | add n => n.toInt
  | report | reset => 0

/-- The start value, or zero after a reset, and what was added since the last reset. -/
def due (start : Int) (cs : List CounterCommand) : Int :=
  (cs.rtakeWhile (· ≠ .reset)).foldl (· + ·.added) (if .reset ∈ cs then 0 else start)

theorem due_nil (start : Int) : due start [] = start := by simp [due]

theorem due_snoc (start : Int) (cs : List CounterCommand) (c : CounterCommand) :
    due start (cs ++ [c]) = if c = .reset then 0 else due start cs + c.added := by
  by_cases hc : c = .reset
  · simp [due, hc]
  · simp [due, hc, Ne.symm hc]

end CounterCommand

theorem Office.box?_isSome_of_resolve {V : Type} {o : Office V} {s : Address} {b : BoxRef}
    (h : (o.resolve s).1 = some b) : (o.box? b).isSome := by
  unfold Office.resolve at h
  split at h
  · cases h
  · split at h
    · cases h
      exact o.box?_isSome_of_isOwned ‹_›
    · cases h

namespace Counter

/-- What a message makes of a counter. -/
def heard (c : Counter) (m : Message Value) : Counter := (m.get? CounterCommand).elim c c.apply

/-- The commands among some messages. -/
def commands (ms : List (Message Value)) : List CounterCommand :=
  ms.filterMap (·.get? CounterCommand)

theorem foldl_heard (c : Counter) (ms : List (Message Value)) :
    ms.foldl heard c = (commands ms).foldl apply c := by
  induction ms generalizing c with
  | nil => rfl
  | cons m ms ih =>
    rw [List.foldl_cons, ih, heard, commands, commands, List.filterMap_cons]
    cases m.get? CounterCommand <;> rfl

/-- Without a reset the order is all the same. -/
theorem foldl_apply_perm (c : Counter) {cs ds : List CounterCommand} (h : cs.Perm ds)
    (hreset : .reset ∉ cs) : cs.foldl apply c = ds.foldl apply c := by
  refine h.foldl_eq' (fun x hx y hy z => ?_) c
  have hne : ∀ {x}, x ∈ cs → x ≠ .reset := by
    rintro x hx rfl
    exact hreset hx
  cases x with
  | reset => exact absurd rfl (hne hx)
  | report => rfl
  | add n =>
    cases y with
    | reset => exact absurd rfl (hne hy)
    | report => rfl
    | add k => simp [apply, Int64.add_assoc, Int64.add_comm n k]

/-- The totals on the way are in the range of the counter. -/
def InRange (start : Int64) (cs : List CounterCommand) : Prop :=
  ∀ front, front <+: cs → Int64.minValue.toInt ≤ CounterCommand.due start.toInt front ∧
    CounterCommand.due start.toInt front ≤ Int64.maxValue.toInt

theorem toInt_tally {start : Int64} {cs : List CounterCommand} (h : InRange start cs) :
    (cs.foldl apply ⟨start⟩).total.toInt = CounterCommand.due start.toInt cs := by
  induction cs using List.reverseRecOn with
  | nil => exact (CounterCommand.due_nil _).symm
  | append_singleton cs c ih =>
    have hcs := ih fun front hfront => h front (hfront.trans (List.prefix_append cs [c]))
    have hrange := h (cs ++ [c]) List.prefix_rfl
    rw [CounterCommand.due_snoc] at hrange ⊢
    rw [List.foldl_append]
    cases c with
    | reset => rfl
    | report => simpa [apply, CounterCommand.added] using hcs
    | add n =>
      simp only [List.foldl_cons, List.foldl_nil, apply, Int64.toInt_add, hcs, CounterCommand.added,
        reduceCtorEq, if_false] at hrange ⊢
      have hmin : Int64.minValue.toInt = -2 ^ 63 := rfl
      have hmax : Int64.maxValue.toInt = 2 ^ 63 - 1 := rfl
      exact Int.bmod_eq_of_le (by omega) (by omega)

/-! ## What a counter does -/

variable {company : Company signature} {ctx : Context} {m : Message Value}
variable {vs : List (Visit signature)} {ending : Ending signature}

/-- All that a counter can do with a message: the accesses, and what it comes to. -/
inductive Does (c : Counter) (ctx : Context) (m : Message Value) :
    List (Visit signature) → Outcome → Prop
  | foreign (w : World signature) (command : m.get? CounterCommand = none) :
    Does c ctx m [⟨w, .report (unknownMessage ctx.address)⟩] .error
  | obeys (w : World signature) (command : CounterCommand) (e : Event)
    (some : m.get? CounterCommand = some command) (told : command ≠ .report) :
    Does c ctx m [⟨w, .report e⟩] .complete
  | unasked (w : World signature) (command : m.get? CounterCommand = some .report)
    (nobody : m.source = none) :
    Does c ctx m [⟨w, .report (.replyWithoutSource ctx.address)⟩] .error
  | answers (w w' w'' : World signature) (s : Address) (b : BoxRef) (e : Event)
    (command : m.get? CounterCommand = some .report) (sender : m.source = some s)
    (found : (w.pool.office.resolve s).1 = some b) :
    Does c ctx m [⟨w, .resolve s⟩, ⟨w', .put b ⟨some ctx.address, .user (.total ⟨c.total⟩)⟩⟩,
      ⟨w'', .report e⟩] .complete
  | gone (w w' : World signature) (s : Address) (command : m.get? CounterCommand = some .report)
    (sender : m.source = some s) (lost : (w.pool.office.resolve s).1 = none) :
    Does c ctx m [⟨w, .resolve s⟩, ⟨w', .report (.unknownAddress s)⟩] .error

theorem handle_foreign {c : Counter} (h : m.get? CounterCommand = none) :
    behaviour.handle (.counter c) ctx m =
      .ask (.log (unknownMessage ctx.address)) fun _ => .done ⟨.counter c, .returned .error⟩ := by
  simp only [behaviour, Part.handle, handle, h]
  rfl

theorem handle_told {c : Counter} {command : CounterCommand}
    (h : m.get? CounterCommand = some command) (htold : command ≠ .report) :
    behaviour.handle (.counter c) ctx m =
      .ask (.log (obeyed ctx.address command (c.apply command).total)) fun _ =>
        .done ⟨.counter (c.apply command), .returned .complete⟩ := by
  simp only [behaviour, Part.handle, handle, h, htold]
  rfl

theorem handle_unasked {c : Counter} (h : m.get? CounterCommand = some .report)
    (hs : m.source = none) :
    behaviour.handle (.counter c) ctx m =
      .ask (.log (.replyWithoutSource ctx.address)) fun _ =>
        .done ⟨.counter c, .returned .error⟩ := by
  simp only [behaviour, Part.handle, handle, h, Context.reply, hs]
  rfl

theorem handle_asked {c : Counter} {s : Address} (h : m.get? CounterCommand = some .report)
    (hs : m.source = some s) :
    behaviour.handle (.counter c) ctx m =
      .ask (.post s ⟨some ctx.address, .user (.total ⟨c.total⟩)⟩) fun (sent : Except Error Unit) =>
        match sent with
        | .ok () => .ask (.log (obeyed ctx.address .report c.total)) fun _ =>
          .done ⟨.counter c, .returned .complete⟩
        | .error _ => .done ⟨.counter c, .returned .error⟩ := by
  simp only [behaviour, Part.handle, handle, h, Context.reply, hs]
  refine congrArg (Dialogue.ask _) (funext fun (sent : Except Error Unit) => ?_)
  cases sent <;> rfl

theorem came (hb : company.behaviour = behaviour) {c : Counter}
    (h : (Act.interpret company (company.behaviour.handle (.counter c) ctx m)).Came vs ending) :
    ending.role = .counter (c.heard m) ∧ ∃ o, ending.verdict = .returned o ∧ o ≠ .poisoned ∧
      Does c ctx m vs o := by
  rw [hb] at h
  cases hcommand : m.get? CounterCommand with
  | none =>
    rw [handle_foreign hcommand] at h
    obtain ⟨w, rest, rfl, rfl, rfl⟩ := h
    exact ⟨by simp [heard, hcommand], .error, rfl, nofun, .foreign w hcommand⟩
  | some command =>
    by_cases htold : command = .report
    · subst htold
      cases hs : m.source with
      | none =>
        rw [handle_unasked hcommand hs] at h
        obtain ⟨w, rest, rfl, rfl, rfl⟩ := h
        exact ⟨by simp [heard, hcommand, apply], .error, rfl, nofun, .unasked w hcommand hs⟩
      | some s =>
        rw [handle_asked hcommand hs] at h
        have hheard : c.heard m = c := by simp [heard, hcommand, apply]
        obtain ⟨us, ws, sent, rfl, hpost, h⟩ := Act.came_bind h
        rcases Act.came_post hpost with ⟨w, w', b, rfl, hfound, rfl⟩ | ⟨w, w', rfl, hlost, rfl⟩
        · obtain ⟨w'', rest, rfl, rfl, rfl⟩ := h
          exact ⟨by rw [hheard], .complete, rfl, nofun,
            .answers w w' w'' s b _ hcommand hs hfound⟩
        · obtain ⟨rfl, rfl⟩ := h
          exact ⟨by rw [hheard], .error, rfl, nofun, .gone w w' s hcommand hs hlost⟩
    · rw [handle_told hcommand htold] at h
      obtain ⟨w, rest, rfl, rfl, rfl⟩ := h
      exact ⟨by simp [heard, hcommand], .complete, rfl, nofun, .obeys w command _ hcommand htold⟩

theorem handle_prompt (hb : company.behaviour = behaviour) (c : Counter) (ctx : Context)
    (m : Message Value) :
    (Act.interpret company (company.behaviour.handle (.counter c) ctx m)).All (·.prompt) := by
  rw [hb]
  cases hcommand : m.get? CounterCommand with
  | none =>
    rw [handle_foreign hcommand]
    exact ⟨rfl, fun _ => trivial⟩
  | some command =>
    by_cases htold : command = .report
    · subst htold
      cases hs : m.source with
      | none =>
        rw [handle_unasked hcommand hs]
        exact ⟨rfl, fun _ => trivial⟩
      | some s =>
        rw [handle_asked hcommand hs]
        refine Dialogue.all_bind (Act.post_prompt s _) fun sent => ?_
        cases sent <;> first | trivial | exact ⟨rfl, fun _ => trivial⟩
    · rw [handle_told hcommand htold]
      exact ⟨rfl, fun _ => trivial⟩

/-- Counters, and what messages make of them. -/
def lineage (hb : company.behaviour = behaviour) : Lineage company Counter where
  role := .counter
  next := heard
  control c m hm := by
    obtain ⟨source, body⟩ := m
    cases body with
    | user value => cases hm
    | control k => rfl
  user c ctx m vs ending _ h := (came hb h).1

/-! ## What becomes of the messages -/

/-- What has become of a message to actor `a`, a counter whose total was `total`. -/
inductive Tells (a : ActorRef) (total : Int64) (e : Dealing signature) : Prop
  /-- A report got its answer, in the mailbox that was found at its sender's address. -/
  | answered (s : Address) (b : BoxRef) (w₀ w : World signature)
    (message : e.message.get? CounterCommand = some .report) (sender : e.message.source = some s)
    (dispatched : ⟨w₀, .dispatch a e.message⟩ ∈ e.visits) (resolved : ⟨w, .resolve s⟩ ∈ e.visits)
    (found : (w.pool.office.resolve s).1 = some b)
    (letters : ∀ b', e.letters b' =
      if b' = b then [⟨some (w₀.pool.addressOf a), .user (.total ⟨total⟩)⟩] else [])
    (outcome : e.outcome = .complete)
  /-- Nobody sent the report, or its sender was gone. -/
  | unanswered (message : e.message.get? CounterCommand = some .report)
    (gone : ∀ s, e.message.source = some s → ∃ w, ⟨w, .resolve s⟩ ∈ e.visits ∧
      (w.pool.office.resolve s).1 = none)
    (letters : ∀ b, e.letters b = []) (outcome : e.outcome = .error)
  | told (command : CounterCommand) (message : e.message.get? CounterCommand = some command)
    (told : command ≠ .report) (letters : ∀ b, e.letters b = []) (outcome : e.outcome = .complete)
  | foreign (message : e.message.get? CounterCommand = none) (user : e.message.isControl = false)
    (letters : ∀ b, e.letters b = []) (outcome : e.outcome = .error)
  | control (control : e.message.isControl) (letters : ∀ b, e.letters b = [])

variable {a : ActorRef} {c : Crew signature} {start : Int64}

/-- Actor `a` of this crew was a counter with this start value before it took any message. -/
def CountsFrom (company : Company signature) (start : Int64) (a : ActorRef)
    (c : Crew signature) : Prop :=
  ∃ (config : Config) (env : Notebook) (ms₀ ms : List (Move signature)) (c₀ : Crew signature),
    (Crew.empty config env).play company ms₀ = some c₀ ∧ c₀.taken a = [] ∧
    (c₀.world.pool.actor? a).map (·.role) = some (.counter ⟨start⟩) ∧
    c₀.play company ms = some c

/-- What the commands in these messages have made of the total. -/
def totalAfter (start : Int64) (es : List (Dealing signature)) : Int64 :=
  ((commands (es.map (·.message))).foldl apply ⟨start⟩).total

/-- What holds of the messages that a counter has been given. -/
structure Reckoned (company : Company signature) (start : Int64) (a : ActorRef)
    (c : Crew signature) : Prop where
  all : (c.dossier company a).messages = c.taken a
  tells : ∀ before e after, (c.dossier company a).closed = before ++ e :: after →
    Tells a (totalAfter start before) e
  exact : ∀ before e after, (c.dossier company a).closed = before ++ e :: after →
    InRange start (commands (before.map (·.message))) →
      (totalAfter start before).toInt =
        CounterCommand.due start.toInt (commands (before.map (·.message)))
  /-- The answers arrive in the order of the questions. -/
  inOrder : ∀ b, ((c.dossier company a).closed.flatMap (·.letters b)).Sublist
    ((c.letters b).map (·.2))
  /-- A message that is being dealt with can be dealt with to the end. -/
  ends : ∀ i rest, c.midst company i = .dealing a rest →
    ∃ n d, c.play company (List.replicate n (.go i)) = some d ∧
      (d.dossier company a).current = none ∧
      (d.dossier company a).messages = (c.dossier company a).messages

theorem letters_of_formal {e : Dealing signature} (h : ∀ v ∈ e.visits, v.atom.formal a)
    (b : BoxRef) :
    e.letters b = [] := by
  refine List.filterMap_eq_nil_iff.mpr fun v hv => ?_
  obtain ⟨w, x⟩ := v
  cases x <;> first | rfl | cases h _ hv

theorem tells_of_came (hb : company.behaviour = behaviour) {counter : Counter}
    {e : Dealing signature} (hm : e.message.isControl = false)
    (hstay : e.visits.Pairwise fun u v => ∀ b, (u.world.pool.office.box? b).isSome →
      (v.world.pool.office.box? b).isSome)
    {w w' : World signature} {us tail : List (Visit signature)} {id : Option ActorId}
    {name : String}
    (hvisits : e.visits =
      ⟨w, .dispatch a e.message⟩ :: (us ++ ⟨w', .setRole a ending.role⟩ :: tail))
    (hus : (Act.interpret company (company.behaviour.handle (.counter counter)
      ⟨id, name, w.pool.addressOf a⟩ e.message)).Came us ending)
    (htail : (Act.windUp a ending.verdict).Came tail e.outcome) : Tells a counter.total e := by
  obtain ⟨-, o, hverdict, ho, hdoes⟩ := came hb hus
  rw [hverdict, Act.windUp_returned ho] at htail
  obtain ⟨rfl, houtcome⟩ := htail
  have hletters : ∀ b, e.letters b = us.filterMap (·.letter b) := by
    intro b
    simp [Dealing.letters, hvisits, Visit.letter, List.filterMap_append]
  have hmem : ∀ v ∈ us, v ∈ e.visits := fun v hv => by simp [hvisits, hv]
  cases hdoes with
  | foreign w₁ hcommand => exact .foreign hcommand hm (fun b => by rw [hletters]; rfl) houtcome
  | obeys w₁ command event hcommand htold =>
    exact .told command hcommand htold (fun b => by rw [hletters]; rfl) houtcome
  | unasked w₁ hcommand hs =>
    refine .unanswered hcommand (fun s hsome => ?_) (fun b => by rw [hletters]; rfl) houtcome
    rw [hs] at hsome
    cases hsome
  | answers w₁ w₂ w₃ s b event hcommand hs hfound =>
    refine .answered s b w w₁ hcommand hs (by simp [hvisits]) (hmem _ (by simp)) hfound
      (fun b' => ?_) houtcome
    have hbox : (w₂.pool.office.box? b).isSome := by
      rw [hvisits] at hstay
      have hlater := (List.pairwise_cons.mp (List.pairwise_append.mp
        (List.pairwise_cons.mp hstay).2).1).1 ⟨w₂, _⟩ List.mem_cons_self
      exact hlater b (Office.box?_isSome_of_resolve hfound)
    rw [hletters]
    by_cases hbb : b' = b
    · subst hbb
      simp [Visit.letter, hbox]
    · simp [Visit.letter, hbb, Ne.symm hbb]
  | gone w₁ w₂ s hcommand hs hlost =>
    refine .unanswered hcommand (fun s' hsome => ⟨w₁, hmem _ ?_, ?_⟩)
      (fun b => by rw [hletters]; rfl) houtcome
    · rw [hs] at hsome
      cases hsome
      simp
    · rw [hs] at hsome
      cases hsome
      exact hlost

/-- Every total that is told is the counter's. -/
theorem Tells.eq_of_mem {total : Int64} {e : Dealing signature} (h : Tells a total e) {b : BoxRef}
    {source : Option Address} {t : Total} (ht : ⟨source, .user (.total t)⟩ ∈ e.letters b) :
    t.value = total := by
  cases h with
  | answered s b₁ w₀ w message sender dispatched resolved found letters outcome =>
    rw [letters] at ht
    split at ht
    · simp only [List.mem_singleton, Message.mk.injEq, Body.user.injEq, Value.total.injEq] at ht
      rw [ht.2]
    · cases ht
  | unanswered message gone letters | told command message told letters
  | foreign message user letters | control control letters =>
    rw [letters] at ht
    cases ht

theorem CountsFrom.reckoned (hc : company.Civil) (hb : company.behaviour = behaviour)
    (h : CountsFrom company start a c) : Reckoned company start a c := by
  obtain ⟨config, env, ms₀, ms, c₀, h₀, hnew, hrole, hplay⟩ := h
  obtain ⟨x, hx, hxrole⟩ := Option.map_eq_some_iff.mp hrole
  have hbooked₀ : Booked config company c₀ := (Booked.empty config env).play hc h₀
  have hbooked := hbooked₀.play hc hplay
  have hwhole : (Crew.empty config env).play company (ms₀ ++ ms) = some c :=
    Moves.play_trans h₀ hplay
  have hself : c₀.world.pool.selfOf a =
      some ((lineage hb).role ⟨start⟩, x.name, x.id) := by
    rw [Pool.selfOf, hx, Option.map_some, hxrole]
    rfl
  constructor
  · exact (hbooked.logged.taken a).symm
  · intro before e after hclosed
    cases hm : e.message.isControl with
    | true =>
      have hcame := (hbooked.logged.right a).came e (by simp [hclosed])
      exact .control hm (letters_of_formal (hcame.all (Act.deal_formal hm)))
    | false =>
      obtain ⟨w, us, ending, w', tail, hvisits, hus, htail⟩ :=
        hbooked₀.answered_at (lineage hb) hc hnew hself hplay hclosed hm
      have hpart :=
        (Dossier.visits_sublist_of_closed hclosed).trans (Booked.visits_sublist hc hwhole a)
      have hstay := (Crew.boxes_stay hc hwhole).sublist hpart
      have htells := tells_of_came hb hm hstay hvisits hus htail
      rwa [Lineage.after, lineage, foldl_heard] at htells
  · intro before e after hclosed hrange
    exact toInt_tally hrange
  · exact Booked.letters_sublist hc hwhole a
  · intro i rest hmidst
    exact hbooked₀.closes_role (lineage hb) hc hnew hself hplay (handle_prompt hb) hmidst

end Counter

open Counter in
/-- Every report is answered with the start value, or zero after a reset, and what was added since,
to whoever is found at its sender's address and in the order of the reports; what cannot be answered
or is no command fails and changes nothing. So without a reset the answer to a report is the same in
all runs in which the commands before it are the same, in whatever order. -/
theorem counter_tells_total {company : Company signature} (hc : company.Civil)
    (hb : company.behaviour = behaviour) {start : Int64} {a : ActorRef} {c : Crew signature}
    (h : CountsFrom company start a c) :
    Reckoned company start a c ∧
      ∀ (company' : Company signature) (a' : ActorRef) (c' : Crew signature), company'.Civil →
        company'.behaviour = behaviour → CountsFrom company' start a' c' →
        ∀ before e after before' e' after',
          (c.dossier company a).closed = before ++ e :: after →
          (c'.dossier company' a').closed = before' ++ e' :: after' →
          .reset ∉ commands (before.map (·.message)) →
          (commands (before.map (·.message))).Perm (commands (before'.map (·.message))) →
          ∀ b b' s s' t t', ⟨s, .user (.total t)⟩ ∈ e.letters b →
            ⟨s', .user (.total t')⟩ ∈ e'.letters b' → t = t' := by
  have hreckoned := h.reckoned hc hb
  refine ⟨hreckoned, ?_⟩
  intro company' a' c' hc' hb' h' before e after before' e' after' hclosed hclosed' hreset hperm
    b b' s s' t t' ht ht'
  have hsame : totalAfter start before = totalAfter start before' := by
    rw [totalAfter, foldl_apply_perm _ hperm hreset, totalAfter]
  have hfirst := (hreckoned.tells before e after hclosed).eq_of_mem ht
  have hsecond := ((h'.reckoned hc' hb').tells before' e' after' hclosed').eq_of_mem ht'
  obtain ⟨v⟩ := t
  obtain ⟨v'⟩ := t'
  rw [show v = v' from (hfirst.trans hsame).trans hsecond.symm]

/-! ## Two senders and a report -/

namespace Counter

/-- A counter that begins with ten, and whoever wants to know. -/
def opening : List (Move signature) := turn 0 (hire (.counter ⟨10⟩)) 12 ++ turn 1 (hire .echo) 12

def tell (i : ThreadId) (command : CounterCommand) : List (Move signature) :=
  turn i (send ⟨1⟩ ⟨some ⟨2⟩, .user (.command command)⟩) 3

/-- The second sender comes when the counter has already been told by the first. -/
def twoBatches : List (Move signature) :=
  tell 2 (.add 5) ++ turn 3 (.drain 0) 11 ++ tell 4 (.add 7) ++ tell 2 .report ++
    turn 3 (.drain 0) 18

def oneBatch : List (Move signature) :=
  tell 2 (.add 7) ++ tell 3 (.add 5) ++ tell 2 .report ++ turn 4 (.drain 0) 23

def whole (ms : List (Move signature)) : Option (Crew signature) :=
  ((Crew.empty {} {} : Crew signature).play staff opening).bind fun c => c.play staff ms

def orders (c : Crew signature) : List (Option CounterCommand) :=
  (c.dossier staff 0).closed.map (·.message.get? CounterCommand)

theorem countsFrom_whole {ms : List (Move signature)} {c : Crew signature}
    (h : whole ms = some c) : CountsFrom staff 10 0 c := by
  obtain ⟨c₀, h₀, hplay⟩ := Option.bind_eq_some_iff.mp h
  have hrun : ((Crew.empty {} {} : Crew signature).play staff opening).map (fun c =>
      ((c.taken 0).isEmpty, (c.world.pool.actor? 0).map fun x =>
        match x.role with
        | .counter k => some k
        | _ => none)) = some (true, some (some ⟨10⟩)) := by decide +kernel
  rw [h₀, Option.map_some, Option.some.injEq, Prod.mk.injEq] at hrun
  obtain ⟨x, hx, hrole⟩ := Option.map_eq_some_iff.mp hrun.2
  refine ⟨{}, {}, opening, ms, c₀, h₀, List.isEmpty_iff.mp hrun.1, ?_, hplay⟩
  rw [hx, Option.map_some]
  cases hpart : x.role <;> rw [hpart] at hrole <;> cases hrole
  rfl

theorem batches_tell_the_same : ∃ c c' e₁ e₂ e₃ e₁' e₂' e₃',
    CountsFrom staff 10 0 c ∧ CountsFrom staff 10 0 c' ∧ Reckoned staff 10 0 c ∧
    (c.dossier staff 0).closed = [e₁, e₂, e₃] ∧ (c'.dossier staff 0).closed = [e₁', e₂', e₃'] ∧
    orders c = [some (.add 5), some (.add 7), some .report] ∧
    orders c' = [some (.add 7), some (.add 5), some .report] ∧
    (c.letters 1).map (·.2.get? Total) = [some ⟨22⟩] ∧
    ∀ b b' s s' t t', ⟨s, .user (.total t)⟩ ∈ e₃.letters b →
      ⟨s', .user (.total t')⟩ ∈ e₃'.letters b' → t = t' := by
  have hrun : (whole twoBatches).map (fun c => (orders c, (c.letters 1).map (·.2.get? Total))) =
      some ([some (.add 5), some (.add 7), some .report], [some ⟨22⟩]) := by decide +kernel
  have hrun' : (whole oneBatch).map orders =
      some [some (.add 7), some (.add 5), some .report] := by decide +kernel
  obtain ⟨c, hplay, horders⟩ := Option.map_eq_some_iff.mp hrun
  obtain ⟨horders, htotals⟩ := Prod.mk.inj horders
  obtain ⟨c', hplay', horders'⟩ := Option.map_eq_some_iff.mp hrun'
  have hthree : ∀ {d : Crew signature} {x y z}, orders d = [x, y, z] → ∃ e₁ e₂ e₃,
      (d.dossier staff 0).closed = [e₁, e₂, e₃] := by
    intro d x y z hd
    refine List.length_eq_three.mp ?_
    rw [← List.length_map (f := fun e => e.message.get? CounterCommand), ← orders, hd]
    rfl
  obtain ⟨e₁, e₂, e₃, hclosed⟩ := hthree horders
  obtain ⟨e₁', e₂', e₃', hclosed'⟩ := hthree horders'
  have hcounts := countsFrom_whole hplay
  have hcounts' := countsFrom_whole hplay'
  have htold := counter_tells_total staff_civil rfl hcounts
  refine ⟨c, c', e₁, e₂, e₃, e₁', e₂', e₃', hcounts, hcounts', htold.1, hclosed, hclosed', horders,
    horders', htotals, ?_⟩
  rw [orders, hclosed] at horders
  rw [orders, hclosed'] at horders'
  simp only [List.map_cons, List.map_nil, List.cons.injEq] at horders horders'
  have hbefore : commands ([e₁, e₂].map (·.message)) = [.add 5, .add 7] := by
    simp [commands, horders]
  have hbefore' : commands ([e₁', e₂'].map (·.message)) = [.add 7, .add 5] := by
    simp [commands, horders']
  refine htold.2 staff 0 c' staff_civil rfl hcounts' [e₁, e₂] e₃ [] [e₁', e₂'] e₃' []
    hclosed hclosed' ?_ ?_
  · rw [hbefore]
    decide
  · rw [hbefore, hbefore']
    exact List.Perm.swap _ _ _

end Counter

end ActorSystem
