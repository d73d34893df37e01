import ActorSystem.Config.Basic
import ActorSystem.Decimal.Shortest
import ActorSystem.Toml.Document

/-!
# Settings in a document

A document changes the settings it names and leaves the others at their defaults. Keys that name
no setting do not count, and neither does what they stand for. The keys are read in the order of
the document; the first one with a value that does not fit is complained about.

A choice is written as a text, or as a table with the text as its only key and nothing below it.

* `ofText_eq_ok`: settings that come out of a document are valid.
-/

namespace ActorSystem.Config

open Toml

/-- What an item is, in a complaint about its type. -/
def describe : Item → String
  | .value (.string s) _ => s!"string {Text.quote s}"
  | .value (.integer n) _ => s!"integer `{n}`"
  | .value (.float x) _ => s!"floating point `{Decimal.floatText x}`"
  | .value (.boolean b) _ => s!"boolean `{b}`"
  | .value (.array _) _ => "sequence"
  | .tables _ => "sequence"
  | .value .datetime _ => "map"
  | .value (.inline _) _ => "map"
  | .table _ => "map"

/-- Where a complaint about the item of a key points to. -/
def place (k : Key) (item : Item) : Span := item.span.getD k.span

def wrongType {α : Type} (k : Key) (item : Item) (expected : String) : Except Fault α :=
  .error ⟨place k item, s!"invalid type: {describe item}, expected {expected}"⟩

def countOf (k : Key) (item : Item) : Except Fault Nat :=
  match item with
  | .value (.integer n) _ =>
    if n < 0 then .error ⟨place k item, s!"invalid value: {describe item}, expected usize"⟩
    else .ok n.toNat
  | _ => wrongType k item "usize"

def flagOf (k : Key) (item : Item) : Except Fault Bool :=
  match item with
  | .value (.boolean b) _ => .ok b
  | _ => wrongType k item "a boolean"

def textOf (k : Key) (item : Item) : Except Fault String :=
  match item with
  | .value (.string s) _ => .ok s
  | _ => wrongType k item "a string"

/-! ## Choices -/

/-- The option that a name stands for. -/
def optionNamed {α : Type} (options : List (String × α)) (name : String) (span : Span) :
    Except Fault α :=
  match options.lookup name with
  | some a => .ok a
  | none =>
    let expected := " or ".intercalate (options.map fun o => s!"`{o.1}`")
    .error ⟨span, s!"unknown variant `{name}`, expected {expected}"⟩

/-- What is wrong with the item below an option: anything but nothing. -/
def belowOption : Item → Option String
  | .value (.array []) _ => none
  | .value (.array _) _ => some "expected empty table"
  | .tables _ => some "expected empty array"
  | .value (.inline t) _ => if t.entries.isEmpty then none else some "expected empty table"
  | .table t => if t.entries.isEmpty then none else some "expected empty table"
  | .value v _ => some s!"expected table, found {v.kindName}"

def optionIn {α : Type} (options : List (String × α)) (t : Table) (span : Span) :
    Except Fault α :=
  match t.entries with
  | [] => .error ⟨span, "wanted exactly 1 element, found 0 elements"⟩
  | [(k, item)] => do
    let a ← optionNamed options k.name k.span
    match belowOption item with
    | none => return a
    | some remark => throw ⟨item.span.getD span, remark⟩
  | _ => .error ⟨span, "wanted exactly 1 element, more than 1 element"⟩

def optionOf {α : Type} (options : List (String × α)) (k : Key) (item : Item) : Except Fault α :=
  match item with
  | .value (.string s) _ => optionNamed options s (place k item)
  | .value (.inline t) _ => optionIn options t (place k item)
  | .table t => optionIn options t (place k item)
  | _ => .error ⟨place k item, "wanted string or table"⟩

def sweepOptions : List (String × SweepStrategy) :=
  [SweepStrategy.deferred, .handoff].map fun s => (s.name, s)

def batchPolicyOptions : List (String × BatchPolicy) :=
  [BatchPolicy.lastNonComplete, .firstNonComplete].map fun p => (p.name, p)

/-! ## Documents -/

/-- The settings after one entry of a document. -/
def withEntry (c : Config) : Key × Item → Except Fault Config
  | (k, item) =>
    match k.name with
    | "workers" => (countOf k item).map fun n => { c with workers := some n }
    | "max_actors" => (countOf k item).map fun n => { c with maxActors := n }
    | "pin_threads" => (flagOf k item).map fun b => { c with pinThreads := b }
    | "thread_prefix" => (textOf k item).map fun s => { c with threadPrefix := s }
    | "sweep" => (optionOf sweepOptions k item).map fun s => { c with sweep := s }
    | "batch_policy" =>
      (optionOf batchPolicyOptions k item).map fun p => { c with batchPolicy := p }
    | _ => .ok c

def ofTable (t : Table) : Except Fault Config := t.entries.foldlM withEntry {}

/-- The settings in a text, not yet checked. -/
def parse (text : String) : Except Fault Config := Toml.parse text >>= ofTable

def ofText (text : String) : Except Error Config :=
  match parse text with
  | .error f => .error (.config (f.render text))
  | .ok c => c.validate.map fun () => c

theorem ofText_eq_ok {text : String} {c : Config} (h : ofText text = .ok c) :
    parse text = .ok c ∧ c.validate = .ok () := by
  unfold ofText at h
  split at h
  · simp at h
  · next d hd =>
    cases hv : d.validate with
    | error e => simp [hv, Except.map] at h
    | ok u =>
      simp only [hv, Except.map, Except.ok.injEq] at h
      subst h
      exact ⟨hd, hv⟩

end ActorSystem.Config
