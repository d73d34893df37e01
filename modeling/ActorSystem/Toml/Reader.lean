import ActorSystem.Toml.Fault

/-!
# Reading a text from front to back

A reader takes characters off the front of an input and knows its place in bytes. It yields a
value, or it is refused; then the place that it has reached is where the fault is.

A refusal can be taken back: a reader that is optional, or has an alternative, goes back to where
it started. Once enough was read to know what is written, the reader is committed and a refusal is
final. On its way out a refusal collects what was being read and what could have come next.

* `optional_eq`: what an optional reader does, in terms of the reader it is made of.
* `optional_of_refused`: an optional reader leaves the input as it was if it is refused.
* `optional_of_final`: a final refusal passes through it.
* `taken_append_rest`: what `takeWhile` takes and what it leaves make up the input.
-/

namespace ActorSystem.Toml

structure Input where
  rest : List Char
  offset : Nat
  /-- How many characters the whole text has: no reader repeats a step more often. -/
  size : Nat
  deriving DecidableEq

def Input.ofString (s : String) : Input := ⟨s.toList, 0, s.length⟩

def byteCount (cs : List Char) : Nat := cs.foldl (fun n c => n + c.utf8Size) 0

/-- The stretch of one character, or of nothing at the end of the input. -/
def Input.span (i : Input) : Span := ⟨i.offset, i.offset + byteCount (i.rest.take 1)⟩

structure Refusal where
  /-- What was being read, if that has a name. -/
  subject : Option String := none
  expected : List String := []
  cause : Option String := none
  final : Bool := false
  deriving DecidableEq

/-- The subject, the expectations and the cause, as far as known, each on a line. -/
def Refusal.remark (r : Refusal) : String :=
  let subject := r.subject.map fun s => s!"invalid {s}"
  let expected := if r.expected.isEmpty then none
    else some ("expected " ++ ", ".intercalate r.expected)
  "\n".intercalate ([subject, expected, r.cause].filterMap id)

/-- A refusal leaves the input at the place that was reached. -/
abbrev Reader := ExceptT Refusal (StateM Input)

namespace Reader

variable {α β : Type}

def refuse : Reader α := throw {}

def refuseFor (cause : String) : Reader α := throw { cause := some cause }

/-- Yields what was made of the input after `place`, or goes back there and is refused. -/
def settle (place : Input) : Except String α → Reader α
  | .ok a => return a
  | .error cause => do
    set place
    refuseFor cause

/-- Runs `r`, with `f` for what happens if it is refused. -/
def orRefused (r : Reader α) (f : Refusal → Reader α) : Reader α := tryCatch r f

def committed (r : Reader α) : Reader α := r.orRefused fun e => throw { e with final := true }

/-- Says what is being read. The innermost reader that says so counts. -/
def naming (subject : String) (r : Reader α) : Reader α :=
  r.orRefused fun e => throw { e with subject := e.subject <|> some subject }

def expecting (expected : List String) (r : Reader α) : Reader α :=
  r.orRefused fun e => throw { e with expected := e.expected ++ expected }

/-- Goes back to where `r` started and says that nothing was read, if `r` is refused. -/
def optional (r : Reader α) : Reader (Option α) := do
  let start ← get
  tryCatch (some <$> r) fun e => do
    if e.final then throw e
    else
      set start
      return none

/-- Tries the second reader from the same start if the first one is refused. -/
def orElse (r s : Reader α) : Reader α := do
  match ← optional r with
  | some a => return a
  | none => s

/-- Refuses what `f` objects to, at the place where it starts. -/
def checked (f : α → Except String β) (r : Reader α) : Reader β := do
  let start ← get
  settle start (f (← r))

theorem optional_eq (r : Reader α) (i : Input) :
    optional r i = match r i with
      | (.ok a, j) => (.ok (some a), j)
      | (.error e, j) => if e.final then (.error e, j) else (.ok none, i) := by
  have run : ∀ x, r i = x → optional r i = match x with
      | (.ok a, j) => (.ok (some a), j)
      | (.error e, j) => if e.final then (.error e, j) else (.ok none, i) := by
    rintro ⟨⟨subject, expected, cause, final⟩ | a, j⟩ h
    all_goals
      simp only [optional, tryCatch, tryCatchThe, MonadExceptOf.tryCatch, ExceptT.tryCatch,
        ExceptT.mk, bind, ExceptT.bind, ExceptT.bindCont, StateT.bind, Functor.map, ExceptT.map,
        h, get, getThe, MonadStateOf.get, liftM, monadLift, MonadLift.monadLift, ExceptT.lift,
        StateT.get, StateT.map, pure]
    · cases final <;> rfl
    · rfl
  exact run _ rfl

theorem optional_of_refused {r : Reader α} {i j : Input} {e : Refusal}
    (h : r i = (.error e, j)) (soft : e.final = false) : optional r i = (.ok none, i) := by
  simp [optional_eq, h, soft]

theorem optional_of_final {r : Reader α} {i j : Input} {e : Refusal}
    (h : r i = (.error e, j)) (final : e.final = true) : optional r i = (.error e, j) := by
  simp [optional_eq, h, final]

/-! ## Characters -/

def offset : Reader Nat := return (← get).offset

def peek : Reader (Option Char) := return (← get).rest.head?

def lookAhead (n : Nat) : Reader (List Char) := return (← get).rest.take n

def skip (n : Nat) : Reader Unit :=
  modify fun i =>
    { i with rest := i.rest.drop n, offset := i.offset + byteCount (i.rest.take n) }

/-- Skips one byte. Inside of a character the place is where the character starts. -/
def skipByte : Reader Unit :=
  modify fun i =>
    if byteCount (i.rest.take 1) = 1 then { i with rest := i.rest.drop 1, offset := i.offset + 1 }
    else i

def takeWhile (p : Char → Bool) : Reader (List Char) := do
  let taken := (← get).rest.takeWhile p
  skip taken.length
  return taken

/-- The longest run of characters that satisfy `p`, which is not empty. -/
def takeSome (p : Char → Bool) : Reader (List Char) := do
  let taken ← takeWhile p
  if taken.isEmpty then refuse else return taken

def one (p : Char → Bool) : Reader Char := do
  match ← peek with
  | some c =>
    if p c then
      skip 1
      return c
    else refuse
  | none => refuse

def literal (expected : List Char) : Reader Unit := do
  if (← lookAhead expected.length) = expected then skip expected.length else refuse

def endOfInput : Reader Unit := do
  if (← get).rest.isEmpty then return else refuse

theorem taken_append_rest (p : Char → Bool) (i : Input) :
    i.rest.takeWhile p ++ i.rest.dropWhile p = i.rest := List.takeWhile_append_dropWhile

/-! ## Sequences -/

/-- As many values as can be read, at most `fuel` of them. -/
def manyWithin (item : Reader α) : Nat → Reader (List α)
  | 0 => return []
  | fuel + 1 => do
    match ← optional item with
    | some a => return a :: (← manyWithin item fuel)
    | none => return []

/-- As many values as can be read, each of which takes at least one character. -/
def many (item : Reader α) : Reader (List α) := do manyWithin item (← get).size

def oneOrMore (item : Reader α) : Reader (List α) := do return (← item) :: (← many item)

/-- Values with separators between them, at least one value. A separator counts only if a value
comes after it. -/
def separatedSome (item : Reader α) (separator : Reader Unit) : Reader (List α) := do
  let a ← item
  return a :: (← many do
    separator
    item)

def separated (item : Reader α) (separator : Reader Unit) : Reader (List α) := do
  return (← optional (separatedSome item separator)).getD []

/-! ## Blanks, line ends and comments -/

def isBlank (c : Char) : Bool := c = ' ' || c = '\t'

def blanks : Reader Unit := do let _ ← takeWhile isBlank

/-- A character that may stand in a comment or between quotes: a tab, or one that is no
control. -/
def isPlain (c : Char) : Bool := c = '\t' || (' ' ≤ c && c ≠ '\x7f')

/-- A line feed, with or without a carriage return. -/
def lineEnd : Reader Unit := do
  match ← peek with
  | none => refuse
  | some c =>
    skipByte
    if c = '\r' then literal ['\n'] else if c = '\n' then return else refuse

def comment : Reader Unit := do
  literal ['#']
  let _ ← takeWhile isPlain

/-- The end of a line that need not be the last one. -/
def lineEndOrEnd : Reader Unit := orElse lineEnd endOfInput

def restOfLine : Reader Unit := expecting ["newline", "`#`"] do
  blanks
  let _ ← optional comment
  lineEndOrEnd

/-- Skips blanks, comments and line ends, at most `fuel` of each. -/
def emptyLinesWithin : Nat → Reader Unit
  | 0 => return
  | fuel + 1 => do
    blanks
    match ← peek with
    | some '#' =>
      comment
      lineEnd
      emptyLinesWithin fuel
    | some '\n' | some '\r' =>
      lineEnd
      emptyLinesWithin fuel
    | _ => return

def emptyLines : Reader Unit := do emptyLinesWithin ((← get).size + 1)

end Reader

end ActorSystem.Toml
