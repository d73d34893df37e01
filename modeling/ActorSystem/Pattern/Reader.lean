import ActorSystem.Pattern.Basic
import ActorSystem.Text.Word

/-!
# Reading patterns

* `a|b` is a choice, `(a)` a group, `(?i-u:a)` a group with settings, `(?<n>a)` one with a name,
  and `(?i)` are settings without a group. No two groups have one name.
* `a?`, `a*` and `a+` are repetitions; a question mark after them makes them sparing.
* `.` is a dot; `^`, `$`, `\A` and `\z` are anchors; `\b`, `\B`, `\<` and `\>` are boundaries.
* A backslash takes the meaning from a character that is no letter and no digit. With `a`, `f`,
  `t`, `n`, `r` and `v` it is a control character, with `x`, `u` and `U` the one whose number
  follows in two, four or eight digits.
* `[a-c]` is a set of characters, `[^a-c]` what is not in it. Sets may stand in sets, and be
  joined by `&&`, `--` and `~~`.
* In verbose mode space and comments, from a number sign to the end of the line, are skipped
  between all these parts, and between the digits of a number.

Counted repetitions are not read: what is written with braces ends at the first closing one, so no
such repetition is complete.

* `afterSpace_suffix`, `not_isSpace_of_afterSpace`: skipping space drops characters in front until
  one comes that is neither space nor the start of a comment.
* `settings?_stop`: settings end before a colon or a closing parenthesis.
-/

namespace ActorSystem.Pattern

structure Input where
  rest : List Char
  verbose : Bool := false
  names : List String := []
  deriving DecidableEq

/-- A reader takes characters off the front of an input, or refuses it. -/
abbrev Reader := StateT Input Option

/-- What comes after space and comments, or after the comment in front. -/
def afterSpace (inComment : Bool) : List Char → List Char
  | [] => []
  | c :: cs =>
    if inComment then afterSpace (c ≠ '\n') cs
    else if c = '#' then afterSpace true cs
    else if Text.isSpace c then afterSpace false cs
    else c :: cs

theorem afterSpace_suffix (inComment : Bool) (cs : List Char) : afterSpace inComment cs <:+ cs := by
  induction cs generalizing inComment with
  | nil => exact List.suffix_refl _
  | cons c cs ih =>
    unfold afterSpace
    split
    · exact (ih _).trans (List.suffix_cons c cs)
    · split
      · exact (ih _).trans (List.suffix_cons c cs)
      · split
        · exact (ih _).trans (List.suffix_cons c cs)
        · exact List.suffix_refl _

theorem not_isSpace_of_afterSpace {inComment : Bool} {cs rest : List Char} {c : Char}
    (h : afterSpace inComment cs = c :: rest) : Text.isSpace c = false ∧ c ≠ '#' := by
  induction cs generalizing inComment with
  | nil => simp [afterSpace] at h
  | cons d cs ih =>
    unfold afterSpace at h
    split at h
    · exact ih h
    · split at h
      · exact ih h
      · rename_i hd
        split at h
        · exact ih h
        · rename_i hs
          cases h
          exact ⟨by simpa using hs, hd⟩

/-- A character that the name of a group may start with. -/
def isNameStart (c : Char) : Bool := c = '_' || Text.isLetter c

/-- A character that may follow in the name of a group. -/
def isNameChar (c : Char) : Bool := "_.[]".contains c || Text.isWordChar c

def isName : List Char → Bool
  | [] => false
  | c :: cs => isNameStart c && cs.all isNameChar

def Flag.ofChar? : Char → Option Flag
  | 'i' => some .caseless
  | 'm' => some .lines
  | 's' => some .dotAll
  | 'U' => some .sparing
  | 'u' => some .unicode
  | 'R' => some .carriageReturn
  | 'x' => some .verbose
  | _ => none

/-- The settings in front of a colon or a closing parenthesis, and what follows them. A minus sign
turns off the flags behind it; there is at most one, and no flag is set twice. -/
def settings? (value : Bool) (known : Settings) : List Char → Option (Settings × List Char)
  | [] => none
  | c :: cs =>
    if c = ':' || c = ')' then some (known, c :: cs)
    else if c = '-' then
      if value && cs.head?.any fun d => (Flag.ofChar? d).isSome then settings? false known cs
      else none
    else
      match Flag.ofChar? c with
      | none => none
      | some flag =>
        if (known.lookup flag).isSome then none else settings? value ((flag, value) :: known) cs

theorem settings?_stop {value : Bool} {known s : Settings} {cs rest : List Char}
    (h : settings? value known cs = some (s, rest)) :
    rest.head? = some ':' ∨ rest.head? = some ')' := by
  fun_induction settings? value known cs with
  | case2 value known c cs hc =>
    cases h
    simpa using hc
  | case3 _ _ _ _ _ ih => exact ih h
  | case7 _ _ _ _ _ _ _ _ _ ih => exact ih h
  | _ => simp at h

def setNames : List String :=
  ["alnum", "alpha", "ascii", "blank", "cntrl", "digit", "graph", "lower", "print", "punct",
    "space", "upper", "word", "xdigit"]

/-- The set that is written by its name behind an opening bracket, and what follows it. -/
def namedSet? : List Char → Option (CharSet × List Char)
  | ':' :: cs =>
    let negated := cs.head? = some '^'
    let cs := if negated then cs.drop 1 else cs
    let name := cs.takeWhile (· ≠ ':')
    match cs.drop name.length with
    | ':' :: ']' :: rest =>
      if setNames.contains (String.ofList name) then some (.named negated, rest) else none
    | _ => none
  | _ => none

def hexDigit? (c : Char) : Option Nat :=
  if c.isDigit then some (c.toNat - '0'.toNat)
  else if 'a' ≤ c.toLower && c.toLower ≤ 'f' then some (c.toLower.toNat - 'a'.toNat + 10)
  else none

/-- The control characters that have a letter. -/
def controls : List (Char × Char) :=
  [('a', '\x07'), ('f', '\x0c'), ('t', '\t'), ('n', '\n'), ('r', '\r'), ('v', '\x0b')]

/-- The letters for a character by its number, and how many digits follow each. -/
def digitCounts : List (Char × Nat) := [('x', 2), ('u', 4), ('U', 8)]

/-- The union of the sets, which are the last one first. -/
def unionOf : List CharSet → CharSet
  | [] => .nothing
  | [s] => s
  | sets => .union sets.reverse

/-- The sequence of the patterns, which are the last one first. -/
def sequenceOf : List Pattern → Pattern
  | [] => .empty
  | [p] => p
  | ps => .sequence ps.reverse

/-- The choice of the patterns, which are the last one first. -/
def choiceOf : List Pattern → Pattern
  | [p] => p
  | ps => .choice ps.reverse

namespace Reader

def skipSpace : Reader Unit :=
  modify fun i => if i.verbose then { i with rest := afterSpace false i.rest } else i

def peek : Reader Char := do
  match (← get).rest with
  | [] => failure
  | c :: _ => return c

def take : Reader Char := do
  match (← get).rest with
  | [] => failure
  | c :: rest =>
    modify ({ · with rest })
    return c

/-- Takes a character and space after it. That cannot be all. -/
def step : Reader Unit := do
  let _ ← take
  skipSpace
  let _ ← peek

def accept (c : Char) : Reader Bool := do
  match (← get).rest with
  | d :: rest =>
    if d = c then modify ({ · with rest })
    return d = c
  | [] => return false

/-! ## Atoms -/

def number : Nat → Nat → Reader Nat
  | 0, value => return value
  | count + 1, value => do
    skipSpace
    match hexDigit? (← take) with
    | some d => number count (16 * value + d)
    | none => failure

def escape : Reader Atom := do
  let c ← take
  if let some count := digitCounts.lookup c then
    let n ← number count 0
    if n.isValidChar then return .literal ⟨Char.ofNat n, c = 'x'⟩ else failure
  else if let some control := controls.lookup c then return .literal ⟨control, false⟩
  else if "dsw".contains c then return .oneOf (.shorthand false)
  else if "DSW".contains c then return .oneOf (.shorthand true)
  else if c = 'A' || c = 'z' then return .anchor
  else if "bB<>".contains c then return .boundary
  else if c.toNat < 0x80 && !c.isAlphanum then return .literal ⟨c, false⟩
  else failure

def atom : Reader Atom := do
  match ← take with
  | '\\' => escape
  | '.' => return .dot
  | '^' | '$' => return .anchor
  | c => return .literal ⟨c, false⟩

/-! ## Sets -/

/-- What is in the place of a character in a set. -/
def setAtom : Reader Atom := do
  match ← take with
  | '\\' => escape
  | c => return .literal ⟨c, false⟩

/-- Whether a minus sign comes next that has a character on its right. A bracket and another minus
sign are none, also behind space and one number sign. -/
def atRange : Reader Bool := do
  let i ← get
  match i.rest with
  | '-' :: cs =>
    let next := if !i.verbose then cs.head?
      else match cs.dropWhile Text.isSpace with
        | '#' :: cs => (cs.dropWhile Text.isSpace).head?
        | cs => cs.head?
    return next ≠ some ']' && next ≠ some '-'
  | _ => return false

def setItem : Reader CharSet := do
  let low ← setAtom
  skipSpace
  let _ ← peek
  if ← atRange then
    step
    match low, ← setAtom with
    | .literal low, .literal high =>
      if low.char ≤ high.char then return .range low high else failure
    | _, _ => failure
  else
    match low with
    | .literal l => return .one l
    | .oneOf s => return s
    | _ => failure

/-- Reads minus signs, each of which stands for itself. -/
def minusSigns : Nat → List CharSet → Reader (List CharSet)
  | 0, items => return items
  | fuel + 1, items => do
    if (← peek) = '-' then
      step
      minusSigns fuel (.one ⟨'-', false⟩ :: items)
    else return items

/-- Reads an opening bracket and what has another meaning right behind it: whether the set is
negated, and the first of its items. -/
def setOpening : Reader (Bool × List CharSet) := do
  step
  let negated := (← peek) = '^'
  if negated then step
  let items ← minusSigns (← get).rest.length []
  if items.isEmpty && (← peek) = ']' then
    step
    return (negated, [.one ⟨']', false⟩])
  else return (negated, items)

/-- Reads a set up to its closing bracket. `left` is what stands to the left of the last operator,
`items` is what comes after that, the last one first. -/
def setBody : Nat → Option CharSet → List CharSet → Reader CharSet
  | 0, _, _ => failure
  | fuel + 1, left, items => do
    let joined := match left with
      | none => unionOf items
      | some s => .operation s (unionOf items)
    skipSpace
    match (← get).rest with
    | ']' :: rest =>
      modify ({ · with rest })
      return joined
    | '[' :: cs =>
      match namedSet? cs with
      | some (s, rest) =>
        modify ({ · with rest })
        setBody fuel left (s :: items)
      | none =>
        let (negated, first) ← setOpening
        let inner ← setBody fuel none first
        setBody fuel left (.bracketed negated inner :: items)
    | '&' :: '&' :: rest | '-' :: '-' :: rest | '~' :: '~' :: rest =>
      modify ({ · with rest })
      setBody fuel (some joined) []
    | _ => setBody fuel left ((← setItem) :: items)

/-! ## Groups -/

def groupName : Reader Unit := do
  let i ← get
  let name := i.rest.takeWhile (· ≠ '>')
  match i.rest.drop name.length with
  | '>' :: rest =>
    let text := String.ofList name
    if isName name && !i.names.contains text then
      set { i with rest, names := text :: i.names }
    else failure
  | _ => failure

/-- Reads an opening parenthesis and what belongs to it: the settings of a group, or settings
without a group. -/
def groupOpening : Reader (Settings × Bool) := do
  let _ ← take
  skipSpace
  match (← get).rest with
  | '?' :: 'P' :: '<' :: rest | '?' :: '<' :: rest =>
    modify ({ · with rest })
    groupName
    return ([], true)
  | '?' :: cs =>
    match settings? true [] cs with
    | some (s, ':' :: rest) =>
      modify ({ · with rest })
      return (s, true)
    | some (s, ')' :: rest) =>
      if s.isEmpty then failure
      modify fun i => { i with rest, verbose := (s.lookup .verbose).getD i.verbose }
      return (s, false)
    | _ => failure
  | _ => return ([], true)

/-- Reads on to the end of a group. `branches` are its earlier alternatives and `items` what comes
after them, each with the last one first. -/
def groupBody : Nat → List Pattern → List Pattern → Reader Pattern
  | 0, _, _ => failure
  | fuel + 1, branches, items => do
    skipSpace
    match (← get).rest with
    | [] | ')' :: _ => return choiceOf (sequenceOf items :: branches)
    | '(' :: _ =>
      let outer := (← get).verbose
      let (s, isGroup) ← groupOpening
      if isGroup then
        modify fun i => { i with verbose := (s.lookup .verbose).getD outer }
        let inner ← groupBody fuel [] []
        if !(← accept ')') then failure
        modify ({ · with verbose := outer })
        groupBody fuel branches (.group s inner :: items)
      else groupBody fuel branches (.settings s :: items)
    | '|' :: rest =>
      modify ({ · with rest })
      groupBody fuel (sequenceOf items :: branches) []
    | '[' :: _ =>
      let (negated, first) ← setOpening
      let inner ← setBody fuel none first
      groupBody fuel branches (.atom (.oneOf (.bracketed negated inner)) :: items)
    | '\x7b' :: _ => failure
    | '?' :: rest | '*' :: rest | '+' :: rest =>
      modify ({ · with rest })
      let _ ← accept '?'
      match items with
      | [] | .settings _ :: _ => failure
      | p :: items => groupBody fuel branches (.repetition p :: items)
    | _ => groupBody fuel branches (.atom (← atom) :: items)

end Reader

def ofString? (text : String) : Option Pattern :=
  match Reader.groupBody (text.length + 1) [] [] { rest := text.toList } with
  | some (p, i) => if i.rest.isEmpty then some p else none
  | none => none

end ActorSystem.Pattern
