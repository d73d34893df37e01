import ActorSystem.Proofs.Crew.Lineages
import ActorSystem.Proofs.Roles.Staff

/-!
# Mocks

A mock answers by its script and shows its probe what it sees. The threads that drain it may take
its mail in batches of any size: the script goes on from batch to batch, and the probe has seen every
message that came to the mock once, in the order in which they were taken and under the name and the
ID that the mock had at that time.

* `Mock.came`: all that a mock does with a message.
* `Mock.probeAt_dealt`, `Mock.probeAt_begun`: what a message leaves on the probe.
* `mock_exact`: what a mock has answered and its probe has seen.
-/

namespace ActorSystem

open Ensemble

variable {company : Company signature} {a : ActorRef}

namespace Ensemble

theorem valueOfKind?_eq_some {k : Kind} {m : Message Value} {v : Value} :
    valueOfKind? k m = some v ↔ m.body = .user v ∧ v.kind = k := by
  obtain ⟨source, body⟩ := m
  cases body with
  | control c => simp [valueOfKind?, Message.value?]
  | user u =>
    simp only [valueOfKind?, Message.value?, Value.ofKind?, Option.bind_some, Body.user.injEq]
    split <;> grind

/-- Probes are told what mocks say, and nothing else is done about it. -/
structure Watches (company : Company signature) : Prop where
  enters : ∀ k, company.outside (.enterProbe k) = modifyNotebook (·.modifyProbe k Probe.enter)
  observes : ∀ k o, company.outside (.observe k o) = modifyNotebook (·.modifyProbe k (·.observe o))

theorem staff_watches : Watches staff := ⟨fun _ => rfl, fun _ _ => rfl⟩

namespace Mock

/-! ## The script -/

variable {m : Mock} {ctx : Context} {msg : Message Value} {vs : List (Visit signature)}

/-- What a mock answers to the `n`-th message, counted from zero. -/
def answer (m : Mock) (n : ℕ) : Outcome := m.script[n]?.getD m.fallback

/-- What a message makes of a mock. -/
def heard (m : Mock) (msg : Message Value) : Mock := if msg.isControl then m else m.next.2

/-- The messages for the role among some messages. -/
def users (ms : List (Message Value)) : List (Message Value) := ms.filter (!·.isControl)

theorem next_eq (m : Mock) : m.next = (m.answer 0, { m with script := m.script.drop 1 }) := by
  obtain ⟨name, kind, script, fallback, probe⟩ := m
  cases script <;> rfl

theorem heard_eq (m : Mock) (msg : Message Value) :
    m.heard msg = { m with script := m.script.drop (users [msg]).length } := by
  rw [heard]
  cases hmsg : msg.isControl <;> simp [users, hmsg, next_eq]

theorem foldl_heard (m : Mock) (ms : List (Message Value)) :
    ms.foldl heard m = { m with script := m.script.drop (users ms).length } := by
  induction ms generalizing m with
  | nil => rfl
  | cons msg ms ih =>
    have husers : users (msg :: ms) = users [msg] ++ users ms := List.filter_append [msg] ms
    rw [List.foldl_cons, ih, heard_eq, husers, List.length_append, List.drop_drop]

theorem answer_foldl_heard (m : Mock) (ms : List (Message Value)) :
    (ms.foldl heard m).answer 0 = m.answer (users ms).length := by
  rw [foldl_heard, answer, answer, List.getElem?_drop]
  rfl

/-! ## What a mock does -/

/-- What a mock shows its probe. -/
def sight (m : Mock) (ctx : Context) (msg : Message Value) : Observed :=
  ⟨ctx.id, ctx.name, msg.source, valueOfKind? m.kind msg⟩

/-- The access that changes a probe. -/
def onProbe (k : ℕ) (f : Probe → Probe) : Atom signature :=
  .outside fun (n : Notebook) => n.modifyProbe k f

theorem interpret_handle (hb : company.behaviour = behaviour) (hw : Watches company) (m : Mock)
    (ctx : Context) (msg : Message Value) :
    Act.interpret company (company.behaviour.handle (.mock m) ctx msg) =
      .ask (onProbe m.probe Probe.enter) fun _ =>
        .ask (onProbe m.probe (·.observe (m.sight ctx msg))) fun _ =>
          .done ⟨.mock m.next.2, .returned m.next.1⟩ := by
  rw [hb]
  change (company.outside (.enterProbe m.probe) >>= fun _ =>
    company.outside (.observe m.probe (m.sight ctx msg)) >>= fun _ => _ : Act signature _) = _
  rw [hw.enters, hw.observes]
  rfl

theorem came (hb : company.behaviour = behaviour) (hw : Watches company)
    {ending : Ending signature}
    (h : (Act.interpret company (company.behaviour.handle (.mock m) ctx msg)).Came vs ending) :
    ending = ⟨.mock m.next.2, .returned m.next.1⟩ ∧ ∃ w w', vs = [⟨w, onProbe m.probe Probe.enter⟩,
      ⟨w', onProbe m.probe (·.observe (m.sight ctx msg))⟩] := by
  rw [interpret_handle hb hw] at h
  obtain ⟨w, rest, rfl, w', rest', rfl, rfl, rfl⟩ := h
  exact ⟨rfl, w, w', rfl⟩

theorem handle_prompt (hb : company.behaviour = behaviour) (hw : Watches company) (m : Mock)
    (ctx : Context) (msg : Message Value) :
    (Act.interpret company (company.behaviour.handle (.mock m) ctx msg)).All (·.prompt) := by
  rw [interpret_handle hb hw]
  exact ⟨rfl, fun _ => ⟨rfl, fun _ => trivial⟩⟩

/-- Mocks, and what messages make of them. -/
def lineage (hb : company.behaviour = behaviour) (hw : Watches company) :
    Lineage company Mock where
  role := .mock
  next := heard
  control m msg hmsg := if_pos hmsg
  user m ctx msg vs ending hmsg h := by
    rw [(came hb hw h).1, heard, hmsg]
    rfl

/-! ## What its probe sees -/

def probeAt (k : ℕ) (w : World signature) : Option Probe := w.env.probes[k]?

theorem probeAt_onProbe (k : ℕ) (f : Probe → Probe) (w : World signature) :
    probeAt k ((onProbe k f).effect w) = (probeAt k w).map f := by
  simp [probeAt, onProbe, Atom.effect, Notebook.modifyProbe, Array.getElem?_modify]

theorem probeAt_of_formal (k : ℕ) {x : Atom signature} (hx : x.formal a) (w : World signature) :
    probeAt k (x.effect w) = probeAt k w := by
  have henv : (x.effect w).env = w.env := by
    refine Atom.env_effect ?_ ?_ w <;> rintro f rfl <;> cases hx
  rw [probeAt, henv, probeAt]

/-- The accesses that a mock is dealt a message with, up to its answer. -/
def showing (a : ActorRef) (k : ℕ) (msg : Message Value) (o : Observed)
    (w w₁ w₂ : World signature) : List (Visit signature) :=
  [⟨w, .dispatch a msg⟩, ⟨w₁, onProbe k Probe.enter⟩, ⟨w₂, onProbe k (·.observe o)⟩]

section

variable {k : ℕ} {u u' w w₁ w₂ : World signature} {o : Observed} {rest : List (Visit signature)}
variable (hrest : ∀ v ∈ rest, v.atom.formal a)

include hrest

/-- A message that was dealt with has been seen. -/
theorem probeAt_dealt (h : Chain (probeAt k) u (showing a k msg o w w₁ w₂ ++ rest) u') :
    probeAt k u' = (probeAt k u).map fun p => p.enter.observe o := by
  obtain ⟨hw, hw₁, hw₂, h⟩ := h
  have hafter := (h.const fun v hv hsame =>
    (probeAt_of_formal k (hrest v hv) v.world).trans hsame).1
  have hw₁ : probeAt k w₁ = probeAt k u := hw₁.trans hw
  rw [hafter, probeAt_onProbe, hw₂, probeAt_onProbe, hw₁, Option.map_map]
  rfl

/-- A message that has come to the role will be seen, is being seen or has been seen. -/
theorem probeAt_begun (hvs : vs <+: showing a k msg o w w₁ w₂ ++ rest) (hne : vs ≠ [])
    (h : Chain (probeAt k) u vs u') :
    ∃ f ∈ [fun p => p, Probe.enter, fun p => p.enter.observe o],
      probeAt k u' = (probeAt k u).map f := by
  cases vs with
  | nil => exact absurd rfl hne
  | cons v vs =>
    obtain ⟨rfl, hvs₁⟩ := List.cons_prefix_cons.mp hvs
    obtain ⟨hw, h⟩ := h
    cases vs with
    | nil => exact ⟨fun p => p, by simp, by rw [Option.map_id']; exact h.trans hw⟩
    | cons v₁ vs =>
      obtain ⟨rfl, hvs₂⟩ := List.cons_prefix_cons.mp hvs₁
      obtain ⟨hw₁, h⟩ := h
      cases vs with
      | nil =>
        have hstart : probeAt k w₁ = probeAt k u := hw₁.trans hw
        refine ⟨Probe.enter, by simp, ?_⟩
        rw [← hstart, ← probeAt_onProbe]
        exact h
      | cons v₂ vs =>
        obtain ⟨rfl, hvs₃⟩ := List.cons_prefix_cons.mp hvs₂
        exact ⟨_, by simp, probeAt_dealt (fun v hv => hrest v (hvs₃.subset hv)) ⟨hw, hw₁, h⟩⟩

end

/-! ## What becomes of the messages -/

/-- What a mock called `name` with the ID `id` sees of these messages. -/
def sights (kind : Kind) (name : String) (id : Option ActorId) :
    List (Dealing signature) → List Observed
  | [] => []
  | e :: es =>
    let seen : List Observed :=
      if e.message.isControl then []
      else [⟨id, name, e.message.source, valueOfKind? kind e.message⟩]
    seen ++ sights kind (e.newName?.getD name) (e.newId?.or id) es

theorem sights_snoc (kind : Kind) (name : String) (id : Option ActorId)
    (es : List (Dealing signature)) (e : Dealing signature) :
    sights kind name id (es ++ [e]) = sights kind name id es ++
      if e.message.isControl then []
      else [⟨idAfter id es, nameAfter name es, e.message.source, valueOfKind? kind e.message⟩] := by
  induction es generalizing name id with
  | nil => simp [sights, idAfter, nameAfter]
  | cons d es ih =>
    rw [List.cons_append, sights, sights, ih, List.append_assoc]
    rfl

theorem values_sights (kind : Kind) (name : String) (id : Option ActorId)
    (es : List (Dealing signature)) :
    (sights kind name id es).filterMap (·.value) =
      (users (es.map (·.message))).filterMap (valueOfKind? kind) := by
  induction es generalizing name id with
  | nil => rfl
  | cons e es ih =>
    rw [sights, List.filterMap_append, ih]
    cases he : e.message.isControl with
    | true => simp [users, he]
    | false => cases hv : valueOfKind? kind e.message <;> simp [users, he, hv]

theorem length_sights (kind : Kind) (name : String) (id : Option ActorId)
    (es : List (Dealing signature)) :
    (sights kind name id es).length = (users (es.map (·.message))).length := by
  induction es generalizing name id with
  | nil => rfl
  | cons e es ih =>
    rw [sights, List.length_append, ih]
    cases he : e.message.isControl <;> simp [users, he, Nat.add_comm]

/-- Actor `a` of this crew was this mock under this name and this ID before it took any message. Its
probe was new then, and nobody but this mock has changed it since. -/
def Plays (company : Company signature) (m : Mock) (name : String) (id : Option ActorId)
    (a : ActorRef) (c : Crew signature) : Prop :=
  ∃ (config : Config) (env : Notebook) (ms₀ ms : List (Move signature)) (c₀ : Crew signature),
    (Crew.empty config env).play company ms₀ = some c₀ ∧ c₀.taken a = [] ∧
    c₀.world.pool.selfOf a = some (.mock m, name, id) ∧ probeAt m.probe c₀.world = some {} ∧
    c₀.Owns company a (probeAt m.probe) ms ∧ c₀.play company ms = some c

/-- How far the probe has come with the messages of a mock that has been given these messages. -/
inductive Seen (m : Mock) (name : String) (id : Option ActorId) (d : Dossier signature)
    (dispatched : List (Message Value)) (observed : List Observed) : Prop
  | all (dispatched : dispatched = users (d.closed.map (·.message)))
    (observed : observed = sights m.kind name id d.closed)
  /-- The mock has another message, which the probe may have seen or not. -/
  | amid (msg : Message Value) (vs : List (Visit signature)) (current : d.current = some (msg, vs))
    (user : msg.isControl = false)
    (dispatched : dispatched = users (d.closed.map (·.message)) ++ [msg])
    (observed : observed = sights m.kind name id d.closed ∨
      observed = sights m.kind name id d.closed ++
        [⟨idAfter id d.closed, nameAfter name d.closed, msg.source, valueOfKind? m.kind msg⟩])

/-- What the probe of a mock shows, given what came to the mock. -/
structure Faithful (m : Mock) (name : String) (id : Option ActorId) (d : Dossier signature)
    (dispatched : List (Message Value)) (p : Probe) : Prop where
  maxInFlight : p.maxInFlight ≤ 1
  seen : Seen m name id d dispatched p.observed
  values : p.values = (dispatched.take p.count).filterMap (valueOfKind? m.kind)

/-- What holds of the messages that a mock has been given. -/
structure Exact (company : Company signature) (m : Mock) (name : String) (id : Option ActorId)
    (a : ActorRef) (c : Crew signature) : Prop where
  all : (c.dossier company a).messages = c.taken a
  returns : ∀ before e after, (c.dossier company a).closed = before ++ e :: after →
    e.message.isControl = false →
      e.outcome = m.answer (users (before.map (·.message))).length
  /-- What stops the mock. -/
  poisoned : ∀ before e after, (c.dossier company a).closed = before ++ e :: after →
    (e.outcome = .poisoned ↔ e.message.isPoison ∨ e.message.isControl = false ∧
      m.answer (users (before.map (·.message))).length = .poisoned)
  stops : ∀ before e after, (c.dossier company a).closed = before ++ e :: after →
    e.outcome = .poisoned → after = [] ∧ (c.dossier company a).current = none ∧
      c.world.pool.phaseOf a = some .sick
  probe : ∃ p, probeAt m.probe c.world = some p ∧
    Faithful m name id (c.dossier company a) (c.dispatched a) p
  /-- A message that is being dealt with can be dealt with to the end. -/
  ends : ∀ i rest, c.midst company i = .dealing a rest →
    ∃ n d, c.play company (List.replicate n (.go i)) = some d ∧
      (d.dossier company a).current = none ∧
      (d.dossier company a).messages = (c.dossier company a).messages

/-- A probe that has seen just this, and sees nothing at the moment. -/
structure Settled (p : Probe) (observed : List Observed) : Prop where
  observed : p.observed = observed
  inFlight : p.inFlight = 0
  maxInFlight : p.maxInFlight ≤ 1

namespace Settled

variable {name : String} {id : Option ActorId} {d : Dossier signature} {p : Probe}
variable {os : List Observed} {dispatched : List (Message Value)}

theorem seen (h : Settled p os) (o : Observed) : Settled (p.enter.observe o) (os ++ [o]) where
  observed := by simp [Probe.enter, Probe.observe, h.observed]
  inFlight := by simp [Probe.enter, Probe.observe, h.inFlight]
  maxInFlight := by simp [Probe.enter, Probe.observe, h.inFlight, h.maxInFlight]

variable (h : Settled p (sights m.kind name id d.closed))

include h

theorem faithful (hdispatched : dispatched = users (d.closed.map (·.message))) :
    Faithful m name id d dispatched p where
  maxInFlight := h.maxInFlight
  seen := .all hdispatched h.observed
  values := by
    rw [Probe.values, Probe.count, h.observed, values_sights, length_sights, hdispatched,
      List.take_length]

theorem faithful_amid {vs : List (Visit signature)} (hcurrent : d.current = some (msg, vs))
    (hmsg : msg.isControl = false)
    (hdispatched : dispatched = users (d.closed.map (·.message)) ++ [msg]) {f : Probe → Probe}
    (hf : f ∈ [fun p => p, Probe.enter, fun p => p.enter.observe
      ⟨idAfter id d.closed, nameAfter name d.closed, msg.source, valueOfKind? m.kind msg⟩]) :
    Faithful m name id d dispatched (f p) := by
  have hsame : (f p).observed = sights m.kind name id d.closed → (f p).maxInFlight ≤ 1 →
      Faithful m name id d dispatched (f p) := fun hobserved hmax =>
    { maxInFlight := hmax
      seen := .amid msg vs hcurrent hmsg hdispatched (.inl hobserved)
      values := by
        rw [Probe.values, Probe.count, hobserved, values_sights, length_sights, hdispatched,
          List.take_left] }
  simp only [List.mem_cons, List.not_mem_nil, or_false] at hf
  rcases hf with rfl | rfl | rfl
  · exact hsame h.observed h.maxInFlight
  · refine hsame h.observed ?_
    simp [Probe.enter, h.inFlight, h.maxInFlight]
  · have hseen := h.seen ⟨idAfter id d.closed, nameAfter name d.closed, msg.source,
      valueOfKind? m.kind msg⟩
    refine ⟨hseen.maxInFlight, .amid msg vs hcurrent hmsg hdispatched (.inr hseen.observed), ?_⟩
    have hall : (users (d.closed.map (·.message)) ++ [msg]).length =
        (sights m.kind name id d.closed ++ [(⟨idAfter id d.closed, nameAfter name d.closed,
          msg.source, valueOfKind? m.kind msg⟩ : Observed)]).length := by
      simp [length_sights]
    rw [Probe.values, Probe.count, hseen.observed, hdispatched, ← hall, List.take_length,
      List.filterMap_append, List.filterMap_append, values_sights]
    rfl

end Settled

section

variable {name : String} {id : Option ActorId} {config : Config} {c₀ c : Crew signature}
variable {ms : List (Move signature)}
variable (hc : company.Civil) (hb : company.behaviour = behaviour) (hw : Watches company)
variable (h₀ : Booked config company c₀) (hnew : c₀.taken a = [])
variable (hself : c₀.world.pool.selfOf a = some (.mock m, name, id))
variable (hplay : c₀.play company ms = some c)

/-- What is left of the mock after these messages. -/
def left (m : Mock) (es : List (Dealing signature)) : Mock :=
  { m with script := m.script.drop (users (es.map (·.message))).length }

theorem after_eq (es : List (Dealing signature)) : (lineage hb hw).after m es = m.left es :=
  foldl_heard m _

theorem next_left (m : Mock) (es : List (Dealing signature)) :
    (m.left es).next.1 = m.answer (users (es.map (·.message))).length := by
  rw [left, ← foldl_heard, next_eq]
  exact answer_foldl_heard m _

include hc hb hw h₀ hnew hself hplay

theorem returns {before after : List (Dealing signature)} {e : Dealing signature}
    (hclosed : (c.dossier company a).closed = before ++ e :: after)
    (hm : e.message.isControl = false) :
    e.outcome = m.answer (users (before.map (·.message))).length := by
  obtain ⟨w, us, ending, w', tail, -, hus, htail⟩ :=
    h₀.answered_at (lineage hb hw) hc hnew hself hplay hclosed hm
  rw [after_eq] at hus
  rw [Act.outcome_of_windUp htail, (came hb hw hus).1]
  exact next_left m before

/-- What a message leaves on the probe. -/
theorem settled_step {before after : List (Dealing signature)} {e : Dealing signature}
    (hclosed : (c.dossier company a).closed = before ++ e :: after) {u u' : World signature}
    (hchain : Chain (probeAt m.probe) u e.visits u') {p : Probe} (hp : probeAt m.probe u = some p)
    (hsettled : Settled p (sights m.kind name id before)) :
    ∃ p', probeAt m.probe u' = some p' ∧ Settled p' (sights m.kind name id (before ++ [e])) := by
  rw [sights_snoc]
  cases hm : e.message.isControl with
  | true =>
    have hcame := ((h₀.play hc hplay).logged.right a).came e (by simp [hclosed])
    have hsame := (hchain.const fun v hv hv' =>
      (probeAt_of_formal m.probe (hcame.all (Act.deal_formal hm) v hv) v.world).trans hv').1
    exact ⟨p, hsame.trans hp, by simpa using hsettled⟩
  | false =>
    obtain ⟨w, us, ending, w', tail, hvisits, hus, htail⟩ :=
      h₀.answered_at (lineage hb hw) hc hnew hself hplay hclosed hm
    rw [after_eq] at hus
    obtain ⟨rfl, w₁, w₂, rfl⟩ := came hb hw hus
    rw [hvisits] at hchain
    exact ⟨_, (probeAt_dealt (Act.formal_back htail _ w') hchain).trans
      (congrArg (Option.map _) hp), hsettled.seen _⟩

/-- What the probe has seen when the mock turns to its next message. -/
theorem settled (hprobe : probeAt m.probe c₀.world = some {})
    (hown : c₀.Owns company a (probeAt m.probe) ms) :
    ∃ u p, probeAt m.probe u = some p ∧
      Settled p (sights m.kind name id (c.dossier company a).closed) ∧
      Chain (probeAt m.probe) u ((c.dossier company a).current.toList.flatMap (·.2)) c.world := by
  have hchain := h₀.chain hc (h₀.logged.visits_of_taken hnew) hown hplay
  rw [Dossier.visits, Chain.append] at hchain
  obtain ⟨u, hclosed, hcurrent⟩ := hchain
  have hinit : ∃ p, probeAt m.probe c₀.world = some p ∧ Settled p (sights m.kind name id []) :=
    ⟨{}, hprobe, rfl, rfl, Nat.zero_le 1⟩
  have hstep : ∀ before e after u u', (c.dossier company a).closed = before ++ e :: after →
      (∃ p, probeAt m.probe u = some p ∧ Settled p (sights m.kind name id before)) →
      Chain (probeAt m.probe) u e.visits u' →
      ∃ p, probeAt m.probe u' = some p ∧ Settled p (sights m.kind name id (before ++ [e])) := by
    rintro before e after u u' hes ⟨p, hp, hsettled⟩ hchain
    exact settled_step hc hb hw h₀ hnew hself hplay hes hchain hp hsettled
  obtain ⟨p, hp, hsettled⟩ := hclosed.induction
    (I := fun es q => ∃ p, q = some p ∧ Settled p (sights m.kind name id es)) hinit hstep
  exact ⟨u, p, hp, hsettled, hcurrent⟩

/-- What the probe has seen at any time. -/
theorem probe_faithful (hprobe : probeAt m.probe c₀.world = some {})
    (hown : c₀.Owns company a (probeAt m.probe) ms)
    (hdispatched : c.dispatched a = users ((c.dossier company a).closed.map (·.message)) ++
      (c.dossier company a).current.toList.flatMap (·.2.filterMap (·.dispatched a))) :
    ∃ p, probeAt m.probe c.world = some p ∧
      Faithful m name id (c.dossier company a) (c.dispatched a) p := by
  obtain ⟨u, p, hp, hsettled, hchain⟩ := settled hc hb hw h₀ hnew hself hplay hprobe hown
  have hlogged := (h₀.play hc hplay).logged
  cases hcurrent : (c.dossier company a).current with
  | none =>
    rw [hcurrent] at hchain hdispatched
    exact ⟨p, Eq.trans hchain hp, hsettled.faithful (by simpa using hdispatched)⟩
  | some x =>
    obtain ⟨msg, vs⟩ := x
    rw [hcurrent] at hchain hdispatched
    simp only [Option.toList_some, List.flatMap_singleton] at hchain hdispatched
    rw [hlogged.dispatched_current hc hcurrent] at hdispatched
    cases hmsg : msg.isControl with
    | true =>
      obtain ⟨rest, htoward⟩ := hlogged.toward hcurrent
      have hcame := htoward.came (Act.came_run rest c.world)
      have hsame := (hchain.const fun v hv hsame =>
        (probeAt_of_formal m.probe (hcame.all (Act.deal_formal hmsg) v
          (List.mem_append_left _ hv)) v.world).trans hsame).1
      exact ⟨p, hsame.trans hp, hsettled.faithful (by simpa [hmsg] using hdispatched)⟩
    | false =>
      -- before the role gets the message the probe has not changed
      by_cases hvs : vs = []
      · subst hvs
        exact ⟨p, Eq.trans hchain hp, hsettled.faithful (by simpa using hdispatched)⟩
      simp only [hmsg, hvs, Bool.false_eq_true, or_self, if_false] at hdispatched
      obtain ⟨w, us, ending, w', tail, o, hprefix, hus, htail⟩ :=
        h₀.answering_now (lineage hb hw) hc hnew hself hplay hcurrent hmsg hvs
      rw [after_eq] at hus
      obtain ⟨rfl, w₁, w₂, rfl⟩ := came hb hw hus
      obtain ⟨f, hf, hworld⟩ := probeAt_begun (Act.formal_back htail _ w') hprefix hvs hchain
      exact ⟨f p, hworld.trans (congrArg (Option.map f) hp),
        hsettled.faithful_amid hcurrent hmsg hdispatched hf⟩

end

namespace Plays

variable {name : String} {id : Option ActorId} {c : Crew signature}

theorem exact (hc : company.Civil) (hb : company.behaviour = behaviour) (hw : Watches company)
    (h : Plays company m name id a c) : Exact company m name id a c := by
  obtain ⟨config, env, ms₀, ms, c₀, hstart, hnew, hself, hprobe, hown, hplay⟩ := h
  have h₀ : Booked config company c₀ := (Booked.empty config env).play hc hstart
  have hbooked := h₀.play hc hplay
  have hwhole : (Crew.empty config env).play company (ms₀ ++ ms) = some c :=
    Moves.play_trans hstart hplay
  have hreturns : ∀ before e after, (c.dossier company a).closed = before ++ e :: after →
      e.message.isControl = false → e.outcome = m.answer (users (before.map (·.message))).length :=
    fun _ _ _ => returns hc hb hw h₀ hnew hself hplay
  constructor
  · exact (hbooked.logged.taken a).symm
  · exact hreturns
  · intro before e after hclosed
    cases hm : e.message.isControl with
    | true =>
      rw [Act.poisoned_of_control hm ((hbooked.logged.right a).came e (by simp [hclosed]))]
      simp
    | false =>
      have hpoison : ¬ e.message.isPoison := fun hpoison => by
        rw [Message.isControl_of_isPoison hpoison] at hm
        cases hm
      rw [hreturns _ _ _ hclosed hm]
      simp [hpoison]
  · exact fun before e after hclosed ho => hbooked.logged.ended hclosed ho
  · exact probe_faithful hc hb hw h₀ hnew hself hplay hprobe hown
      (Booked.dispatched_eq hc hwhole a)
  · intro i rest hmidst
    exact h₀.closes_role (lineage hb hw) hc hnew hself hplay (handle_prompt hb hw) hmidst

end Plays

end Mock

end Ensemble

open Ensemble.Mock in
/-- A mock answers each message for its role by its script, and by its fallback when the script is at
its end, in batches of whatever size; it stops at the first poison message or poisoned answer. Its
probe shows one observation for each message that came to it, in their order and under the name and
the ID of that time, and never more than one message at once. -/
theorem mock_exact (hc : company.Civil) (hb : company.behaviour = behaviour)
    (hw : Watches company) {m : Mock} {name : String} {id : Option ActorId} {c : Crew signature}
    (h : Plays company m name id a c) :
    Exact company m name id a c ∧
      ∀ msg v, valueOfKind? m.kind msg = some v ↔ msg.body = .user v ∧ v.kind = m.kind :=
  ⟨h.exact hc hb hw, fun _ _ => valueOfKind?_eq_some⟩

/-! ## A mock that is poisoned -/

section

variable {σ : Signature} {company : Company σ} {a : ActorRef} {c c' : Crew σ}

/-- No change to what lies outside of the pool. -/
def Atom.inside : Atom σ → Bool
  | .outside _ | .alter _ => false
  | _ => true

theorem Atom.env_of_inside {x : Atom σ} (hx : x.inside) (w : World σ) :
    (x.effect w).env = w.env := by
  refine x.env_effect ?_ ?_ w <;> rintro f rfl <;> cases hx

/-- Only those who deal with messages of actor `a` may change what lies outside of the pool. -/
def Crew.spares (company : Company σ) (a : ActorRef) (c : Crew σ) : Move σ → Bool
  | .begin _ _ => true
  | .go i =>
    ((c.jobs i).all fun j =>
      match j.rest with
      | .done _ => true
      | .ask x _ => x.inside) || decide ((c.midst company i).actor? = some a)

def Crew.sparesAll (company : Company σ) (a : ActorRef) : Crew σ → List (Move σ) → Bool
  | _, [] => true
  | c, m :: ms => c.spares company a m && (c.step company m).all (sparesAll company a · ms)

theorem Crew.env_of_spares {m : Move σ} (hm : c.spares company a m)
    (hstep : c.step company m = some c') :
    c'.world.env = c.world.env ∨ ∃ i, m = .go i ∧ (c.midst company i).actor? = some a := by
  rcases Crew.step_cases hstep with ⟨i, r, rfl, -, rfl⟩ | ⟨i, j, o, rfl, -, -, rfl⟩ |
    ⟨i, j, x, next, rfl, hj, hrest, -, rfl⟩
  · exact .inl rfl
  · exact .inl rfl
  · simp only [spares, hj, Option.all_some, hrest, Bool.or_eq_true, decide_eq_true_eq] at hm
    rcases hm with hm | hm
    · exact .inl (Atom.env_of_inside hm c.world)
    · exact .inr ⟨i, rfl, hm⟩

theorem Crew.owns_of_sparesAll {β : Type} (g : σ.Env → β) {ms : List (Move σ)}
    (h : c.sparesAll company a ms) : c.Owns company a (fun w => g w.env) ms := by
  induction ms generalizing c with
  | nil => exact fun k m d d' hk => absurd hk (by simp)
  | cons m ms ih =>
    obtain ⟨hm, hms⟩ := Bool.and_eq_true_iff.mp h
    intro k n d d' hk hd hstep
    cases k with
    | zero =>
      cases hk
      cases hd
      exact (Crew.env_of_spares hm hstep).imp_left (congrArg g)
    | succ k =>
      obtain ⟨c', hc', hd⟩ := Moves.play_cons.mp hd
      rw [hc'] at hms
      exact ih hms k n d d' hk hd hstep

end

deriving instance DecidableEq for Mock

namespace Ensemble.Mock

def moody : Mock := ⟨"moody", .int32, [.error], .complete, 0⟩

def tell (address : Address) (body : Body Value) : List (Move signature) :=
  turn 1 (send address ⟨some ⟨9⟩, body⟩) 3

/-- Three drains by two threads. The last message comes too late. -/
def shift : List (Move signature) :=
  tell ⟨1⟩ (.user (.int32 7)) ++ tell ⟨1⟩ (.control (.setName "calm")) ++ turn 2 (.drain 0) 15 ++
    tell ⟨1⟩ (.user (.bool true)) ++ tell ⟨1⟩ (.control (.setId ⟨5⟩)) ++ turn 3 (.drain 0) 22 ++
    tell ⟨5⟩ (.user (.int32 8)) ++ tell ⟨5⟩ (.control .poison) ++ tell ⟨5⟩ (.user (.int32 9)) ++
    turn 2 (.drain 0) 18

def hired : Option (Crew signature) :=
  (Crew.empty {} { probes := #[{}] } : Crew signature).play staff (turn 0 (hire (.mock moody)) 12)

def shown (c : Crew signature) : Option (List (Option ActorId × String × Bool)) :=
  (probeAt 0 c.world).map fun p => p.observed.map fun o => (o.actor, o.name, o.value.isSome)

def asMock (part : Part) : Option Mock :=
  match part with
  | .mock m => some m
  | _ => none

theorem plays_of_hired {c₀ c : Crew signature} (h₀ : hired = some c₀)
    (hplay : c₀.play staff shift = some c) : Plays staff moody "moody" (some ⟨1⟩) 0 c := by
  have hactor : hired.map (fun c => ((c.taken 0).isEmpty,
      (c.world.pool.selfOf 0).map fun s => (asMock s.1, s.2))) =
      some (true, some (some moody, "moody", some ⟨1⟩)) := by decide +kernel
  have hprobe : hired.map (fun c => ((probeAt 0 c.world).map fun p =>
      (p.observed.isEmpty, p.inFlight, p.maxInFlight), c.sparesAll staff 0 shift)) =
      some (some (true, 0, 0), true) := by decide +kernel
  rw [h₀, Option.map_some, Option.some.injEq, Prod.mk.injEq] at hactor hprobe
  obtain ⟨hnew, hactor⟩ := hactor
  obtain ⟨hprobe, hspares⟩ := hprobe
  obtain ⟨⟨role, self⟩, hself, hrole⟩ := Option.map_eq_some_iff.mp hactor
  obtain ⟨⟨observed, inFlight, maxInFlight⟩, hprobe, hempty⟩ := Option.map_eq_some_iff.mp hprobe
  obtain ⟨hrole, rfl⟩ := Prod.mk.inj hrole
  refine ⟨{}, { probes := #[{}] }, turn 0 (hire (.mock moody)) 12, shift, c₀, h₀,
    List.isEmpty_iff.mp hnew, ?_, ?_, ?_, hplay⟩
  · cases role <;> cases hrole
    exact hself
  · simp only [Prod.mk.injEq, List.isEmpty_iff] at hempty
    obtain ⟨rfl, rfl, rfl⟩ := hempty
    exact hprobe
  · exact Crew.owns_of_sparesAll (fun env : Notebook => env.probes[0]?) hspares

def worked : Option (Crew signature) := hired.bind fun c => c.play staff shift

theorem moody_poisoned : ∃ c, Plays staff moody "moody" (some ⟨1⟩) 0 c ∧
    Exact staff moody "moody" (some ⟨1⟩) 0 c ∧
    (c.dossier staff 0).closed.map (·.outcome) =
      [.error, .complete, .complete, .complete, .complete, .poisoned] ∧
    shown c = some
      [(some ⟨1⟩, "moody", true), (some ⟨1⟩, "calm", false), (some ⟨5⟩, "calm", true)] := by
  have houtcomes : worked.map (fun c => (c.dossier staff 0).closed.map (·.outcome)) =
      some [.error, .complete, .complete, .complete, .complete, .poisoned] := by decide +kernel
  have hshown : worked.map shown = some (some
      [(some ⟨1⟩, "moody", true), (some ⟨1⟩, "calm", false), (some ⟨5⟩, "calm", true)]) := by
    decide +kernel
  obtain ⟨c, hworked, houtcomes⟩ := Option.map_eq_some_iff.mp houtcomes
  rw [hworked] at hshown
  obtain ⟨c₀, h₀, hplay⟩ := Option.bind_eq_some_iff.mp hworked
  have hplays := plays_of_hired h₀ hplay
  exact ⟨c, hplays, (mock_exact staff_civil rfl staff_watches hplays).1, houtcomes,
    Option.some.inj hshown⟩

end Ensemble.Mock

end ActorSystem
