import ActorSystem.Toml.Reader

/-!
# Texts between quotes

Four forms: between double quotes, with escapes, or between single quotes, as they are; each on
one line or, between triple quotes, on several. On several lines a line end right after the
opening quotes does not count, a backslash at the end of a line swallows all space up to the next
character, and the closing quotes may be preceded by one or two quotes of the text.

The opening quotes settle the form: after them a text is refused for good.
-/

namespace ActorSystem.Toml

open Reader

/-- The character that the escape with this letter stands for. -/
def simpleEscape : Char → Option Char
  | 'b' => some '\x08'
  | 't' => some '\t'
  | 'n' => some '\n'
  | 'f' => some '\x0c'
  | 'r' => some '\r'
  | '\x22' => some '\x22'
  | '\\' => some '\\'
  | _ => none

def hexValue? (c : Char) : Option Nat :=
  if '0' ≤ c && c ≤ '9' then some (c.toNat - '0'.toNat)
  else if 'a' ≤ c && c ≤ 'f' then some (c.toNat - 'a'.toNat + 10)
  else if 'A' ≤ c && c ≤ 'F' then some (c.toNat - 'A'.toNat + 10)
  else none

/-- The number with these digits, if all of them are digits in this base. -/
def numberIn? (base : Nat) (digits : List Char) : Option Nat :=
  digits.foldlM (fun n c => do
    let d ← hexValue? c
    if d < base then some (base * n + d) else none) 0

def outOfRange : String := "value is out of range"

/-- A character by its code point, written with exactly so many digits. -/
def codePoint (digits : Nat) : Reader Char :=
  naming s!"unicode {digits}-digit hex code" <| committed do
    let written := (← lookAhead digits).takeWhile fun c => (hexValue? c).isSome
    if written.length < digits then refuse
    else
      let n := (numberIn? 16 written).getD 0
      if n.isValidChar then
        skip digits
        return Char.ofNat n
      else refuseFor outOfRange

/-- A backslash and what it escapes. The letter counts as read even if no escape has it. -/
def escaped : Reader Char := do
  literal ['\\']
  match ← peek with
  | none => refuse
  | some 'u' =>
    skip 1
    codePoint 4
  | some 'U' =>
    skip 1
    codePoint 8
  | some c =>
    skipByte
    match simpleEscape c with
    | some d => return d
    | none =>
      naming "escape sequence" <|
        expecting ["`b`", "`f`", "`n`", "`r`", "`t`", "`u`", "`U`", "`\\`", "`\"`"] <|
        committed refuse

def doubleQuote : Char := '\x22'

def singleQuote : Char := '\x27'

/-- A character that stands for itself between double quotes. -/
def isUnescaped (c : Char) : Bool := isPlain c && c ≠ doubleQuote && c ≠ '\\'

/-- A character that may stand between single quotes. -/
def isVerbatim (c : Char) : Bool := isPlain c && c ≠ singleQuote

/-! ## On one line -/

def escapedText : Reader (List Char) := do
  literal [doubleQuote]
  let pieces ← many (orElse (takeSome isUnescaped) (do return [← escaped]))
  naming "basic string" (committed (literal [doubleQuote]))
  return pieces.flatten

def verbatimText : Reader (List Char) := naming "literal string" do
  literal [singleQuote]
  let text ← takeWhile isVerbatim
  committed (literal [singleQuote])
  return text

/-! ## On several lines -/

def isMark (quote : Char) (cs : List Char) : Bool := cs.take 3 = [quote, quote, quote]

def mark (quote : Char) : Reader Unit := literal [quote, quote, quote]

/-- Two quotes, or else one, that belong to the text because of what comes after them. -/
def innerQuotes (quote : Char) (belongs : List Char → Bool) : Reader (List Char) := do
  match (← get).rest with
  | a :: b :: rest =>
    if a = quote && b = quote && belongs rest then
      skip 2
      return [quote, quote]
    else if a = quote && belongs (b :: rest) then
      skip 1
      return [quote]
    else refuse
  | _ => refuse

/-- Something other than a quote comes next. -/
def otherNext (quote : Char) (cs : List Char) : Bool := cs.head?.any (· ≠ quote)

/-- A backslash at the end of a line, and the space after it. -/
def lineContinuation : Reader Unit := do
  literal ['\\']
  blanks
  lineEnd
  let _ ← many (orElse lineEnd (do let _ ← takeSome isBlank))

/-- A piece of a text with escapes on several lines, other than a quote. -/
def escapedPiece : Reader (List Char) :=
  orElse (takeSome isUnescaped) <|
  orElse (do
    lineContinuation
    return []) <|
  orElse (do return [← escaped]) (do
    lineEnd
    return ['\n'])

/-- Quotes count as read even if no text can come after them. -/
def escapedLines : Reader (List Char) := naming "multiline basic string" do
  mark doubleQuote
  committed do
    let _ ← optional lineEnd
    let first ← many escapedPiece
    let more ← many do
      let quotes ← innerQuotes doubleQuote (otherNext doubleQuote)
      return quotes ++ (← many escapedPiece).flatten
    let last ← optional (innerQuotes doubleQuote (isMark doubleQuote))
    mark doubleQuote
    return first.flatten ++ more.flatten ++ last.getD []

/-- A piece of a text as it is on several lines, other than a quote. -/
def verbatimPiece : Reader (List Char) :=
  orElse (takeSome isVerbatim) (do
    lineEnd
    return ['\n'])

def verbatimLines : Reader (List Char) := naming "multiline literal string" do
  mark singleQuote
  committed do
    let _ ← optional lineEnd
    let first ← many verbatimPiece
    let more ← many do
      let quotes ← innerQuotes singleQuote (otherNext singleQuote)
      return quotes ++ (← oneOrMore verbatimPiece).flatten
    let last ← optional (innerQuotes singleQuote (isMark singleQuote))
    mark singleQuote
    return first.flatten ++ more.flatten ++ last.getD []

def quotation : Reader String := do
  return String.ofList
    (← orElse escapedLines (orElse escapedText (orElse verbatimLines verbatimText)))

end ActorSystem.Toml
