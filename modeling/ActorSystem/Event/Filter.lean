import ActorSystem.Decimal.Numeral
import ActorSystem.Event
import ActorSystem.Pattern.Fault
import ActorSystem.Text.Word

/-!
# Which events are shown

A filter is a list of directives. A directive names a target, or none, and the level up to which
it shows events; it speaks about the events whose origin starts with its target, or only about
those of them that have a certain field. Of the directives that speak about an event the one with
the longest target decides. With targets of one length a directive that asks for a field comes
first, of two such ones the one whose field is later in the alphabet, and of two that ask for the
same the later one. An event that no directive speaks about is not shown.

A filter is written as directives with commas between them.

* `info` is for all events, `pool=info` for those from `pool`, `pool` for all detail from `pool`.
* `pool[{text}]=info` is for the events from `pool` that have the field `text`.
* Levels are written by name, in any case, or as numbers from 0 to 5; 0 and `off` show nothing.
* Directives that cannot be read are left out with a complaint. Without any directive errors are
  shown, and nothing else.

Events do not carry the spans of code that they happened in, so a directive about spans, with a
name in its brackets or a value for its field, speaks about no event. A value that is no number is
a pattern, and a directive is left out if its pattern cannot be used.

* `speaksOf_of_everything`: a directive without brackets speaks about an event if and only if its
  target is a beginning of the event's origin.
* `valueFault?_of_isNumeral`: nothing is wrong with a value that is a number.
-/

namespace ActorSystem

/-- Which of the events from its target a directive speaks about. -/
inductive Scope where
  | everything
  | field (name : String)
  | span
  deriving DecidableEq

structure Directive where
  /-- `none` is the target of every event. -/
  target : Option String
  scope : Scope
  detail : Nat
  deriving DecidableEq

inductive DirectiveFault where
  | malformed
  | unknownLevel
  | unusableValue (fault : Pattern.Fault)
  deriving DecidableEq

def DirectiveFault.message : DirectiveFault → String
  | malformed => "invalid filter directive"
  | unknownLevel =>
    "error parsing level filter: expected one of \"off\", \"error\", \"warn\", \"info\", " ++
      "\"debug\", \"trace\", or a number 0-5"
  | unusableValue fault => "invalid field filter: " ++ fault.message

/-! ## The parts of a directive -/

structure Stretch where
  start : Nat
  stop : Nat
  deriving DecidableEq

/-- What is in the brackets of a directive: the name of a span, a field, both or neither. -/
structure Brackets where
  isNamed : Bool
  field : Option Stretch
  deriving DecidableEq

/-- Where the parts of a directive are, in bytes from its start. -/
inductive Outline where
  /-- There is only one part, a level or a target. -/
  | single
  /-- A target that ends at one place, perhaps brackets, and a level that starts at another one.
  The level may be malformed; what is wrong with the brackets counts first. -/
  | parts (target : Option Nat) (brackets : Option Brackets)
    (level : Except DirectiveFault (Option Nat))

namespace Outline

def width (cs : List Char) : Nat := (String.ofList cs).utf8ByteSize

/-- Where the level starts in the rest of a directive, from `place` on, unless nothing is left. -/
def levelStart (place : Nat) : List Char → Except DirectiveFault (Option Nat)
  | [] => .ok none
  | '=' :: _ => .ok (some (place + 1))
  | _ => .error .malformed

/-- The rest of a directive, from `place` on: the inside of brackets, and what follows them. -/
def ofBrackets (target : Option Nat) (place : Nat) (cs : List Char) :
    Except DirectiveFault Outline :=
  let name := cs.takeWhile fun c => c ≠ ']' && c ≠ '\x7b'
  let place := place + width name
  match cs.drop name.length with
  | ']' :: rest =>
    .ok (.parts target (some ⟨!name.isEmpty, none⟩) (levelStart (place + 1) rest))
  | '\x7b' :: rest =>
    let field := rest.takeWhile (· ≠ '\x7d')
    let stop := place + 1 + width field
    match field, rest.drop field.length with
    | _ :: _, '\x7d' :: rest =>
      .ok (.parts target (some ⟨!name.isEmpty, some ⟨place + 1, stop⟩⟩) (match rest with
        | ']' :: rest => levelStart (stop + 2) rest
        | _ => .error .malformed))
    | _, _ => .error .malformed
  | _ => .error .malformed

/-- A character that a directive without brackets in front may start with. -/
def isOpening (c : Char) : Bool :=
  Text.isWordChar c || c = '-' || c = ':' || c = '_'

def ofDirective : List Char → Except DirectiveFault Outline
  | [] => .error .malformed
  | '[' :: rest => ofBrackets none 1 rest
  | c :: cs =>
    let name := (c :: cs).takeWhile fun c => c ≠ '=' && c ≠ '['
    let stop := width name
    if !isOpening c then .error .malformed
    else match (c :: cs).drop name.length with
      | '[' :: rest => ofBrackets (some stop) (stop + 1) rest
      | [] => .ok .single
      | rest => .ok (.parts (some stop) none (levelStart stop rest))

end Outline

namespace Directive

def allDetail : Nat := Level.trace.detail

/-- The detail that stands for nothing, and that of each level, by name. -/
def detailNames : List (String × Nat) :=
  ("off", 0) :: [Level.error, .warn, .info, .debug, .trace].map fun l => (l.name.toLower, l.detail)

def detail? (text : String) : Option Nat :=
  if text = "" then some Level.error.detail
  else
    let digits := if text.startsWith "+" then text.toList.drop 1 else text.toList
    if !digits.isEmpty && digits.all Char.isDigit then
      let n := digits.foldl (fun n d => 10 * n + (d.toNat - '0'.toNat)) 0
      if n ≤ allDetail then some n else none
    else detailNames.lookup text.toLower

/-- The bytes from `start` to `stop`, unless they are cut inside of a character. -/
def piece? (text : String) (start stop : Nat) : Option String :=
  String.fromUTF8? (text.toUTF8.extract start stop)

def piece (text : String) (start stop : Nat) : Except DirectiveFault String :=
  match piece? text start stop with
  | some p => .ok p
  | none => .error .malformed

def valueFault? (value : String) : Option Pattern.Fault :=
  if Decimal.isNumeral value then none else Pattern.fault? value

/-- The events that have a field. With a value the field is one of spans. -/
def scopeOfField (field : String) : Except DirectiveFault Scope :=
  match field.splitOn "=" with
  | _ :: value :: _ =>
    match valueFault? value with
    | some fault => .error (.unusableValue fault)
    | none => .ok .span
  | _ => .ok (.field field)

/-- The events that a directive with these brackets is about. Without a field it is about a span,
even if the name of that is empty. -/
def scopeOfBrackets (text : String) (b : Brackets) : Except DirectiveFault Scope := do
  match b.field with
  | none => return .span
  | some f =>
    let scope ← scopeOfField (← piece text f.start f.stop)
    return if b.isNamed then .span else scope

/-- The directive in a text. Its parts are looked for in the text without the space around it, and
then cut out of the whole text at the same places: space in front shifts them. -/
def parse (text : String) : Except DirectiveFault Directive := do
  match ← Outline.ofDirective (Text.trim text.toList) with
  | .single =>
    match detail? text with
    | some n => return ⟨none, .everything, n⟩
    | none => return ⟨some text, .everything, allDetail⟩
  | .parts target brackets level =>
    let target ← target.mapM (piece text 0)
    let scope ← match brackets with
      | none => pure .everything
      | some b => scopeOfBrackets text b
    match ← (← level).mapM fun start => piece text start text.utf8ByteSize with
    | none | some "" => return ⟨target, scope, allDetail⟩
    | some level =>
      match detail? level with
      | some n => return ⟨target, scope, n⟩
      | none => throw .unknownLevel

/-- The fields of an event by name; its title is one of them. -/
def fieldNames (e : Event) : List String := "message" :: e.fields.map (·.1)

def speaksOf (d : Directive) (e : Event) : Bool :=
  d.target.all (e.origin.startsWith ·) &&
    match d.scope with
    | .everything => true
    | .field name => (fieldNames e).contains name
    | .span => false

/-- The longer its target, the more a directive counts; one without a target counts least. -/
def reach (d : Directive) : Nat :=
  match d.target with
  | none => 0
  | some t => t.utf8ByteSize + 1

def yieldsTo (a b : Directive) : Bool :=
  if a.reach ≠ b.reach then a.reach < b.reach
  else match a.scope, b.scope with
    | .field f, .field g => f < g
    | .everything, .field _ => true
    | _, _ => false

theorem valueFault?_of_isNumeral {value : String} (h : Decimal.isNumeral value = true) :
    valueFault? value = none := by
  simp [valueFault?, h]

theorem speaksOf_of_everything {d : Directive} (h : d.scope = .everything) (e : Event) :
    d.speaksOf e = d.target.all (e.origin.startsWith ·) := by
  simp [speaksOf, h]

end Directive

structure Filter where
  directives : List Directive
  deriving DecidableEq

namespace Filter

/-- Of two directives the one that counts; the later one if they count the same. -/
def stronger (a b : Directive) : Directive := if b.yieldsTo a then a else b

def deciding? (f : Filter) (e : Event) : Option Directive :=
  match f.directives.filter (·.speaksOf e) with
  | [] => none
  | d :: rest => some (rest.foldl stronger d)

def shows (f : Filter) (e : Event) : Bool :=
  (f.deciding? e).any fun d => e.level.detail ≤ d.detail

/-- The filter in a text, and the directives that could not be read. -/
def parse (text : String) : Filter × List (String × DirectiveFault) :=
  let written := (text.splitOn ",").filter (· ≠ "")
  let read := written.map fun w => (w, Directive.parse w)
  let directives := read.filterMap fun
    | (_, .ok d) => some d
    | (_, .error _) => none
  let faults := read.filterMap fun
    | (w, .error e) => some (w, e)
    | (_, .ok _) => none
  (⟨if directives.isEmpty then [⟨none, .everything, Level.error.detail⟩] else directives⟩, faults)

def complaint (written : String) (fault : DirectiveFault) : String :=
  s!"ignoring `{written}`: {fault.message}"

end Filter

end ActorSystem
