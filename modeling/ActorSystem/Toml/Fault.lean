/-!
# Faults in a document

A fault is a remark about a stretch of the text. It is shown with the line it is on and carets
below the stretch.

* Lines and columns count from one; a line ends at a line feed.
* A column counts characters. When the stretch starts with a character of several bytes it counts
  bytes, as it does past the end of the text.
* The carets are as many as the stretch has bytes, but stay on the line; there is always one.
-/

namespace ActorSystem.Toml

structure Span where
  start : Nat
  stop : Nat
  deriving DecidableEq, Inhabited

structure Fault where
  span : Span
  remark : String
  deriving DecidableEq

/-- The number of characters in a piece of UTF-8, none if it is cut inside of a character. -/
def charCount? (bytes : ByteArray) : Option Nat := (String.fromUTF8? bytes).map (·.length)

/-- The zero-based line and column of a byte offset. -/
def position (text : String) (offset : Nat) : Nat × Nat :=
  let bytes := text.toUTF8
  if bytes.size = 0 then (0, offset)
  else
    let at_ := min offset (bytes.size - 1)
    let before := (bytes.extract 0 at_).toList
    let line := before.count 10
    let lineStart := at_ - (before.reverse.takeWhile (· ≠ 10)).length
    let column := match charCount? (bytes.extract lineStart (at_ + 1)) with
      | some n => n - 1
      | none => at_ - lineStart
    (line, column + (offset - at_))

def spaces (n : Nat) : String := String.ofList (List.replicate n ' ')

def Fault.render (f : Fault) (text : String) : String :=
  let (line, column) := position text f.span.start
  let number := toString (line + 1)
  let content := ((text.splitOn "\n")[line]?).getD ""
  let gutter := spaces (number.length + 1) ++ "|"
  let carets := max 1 (min (f.span.stop - f.span.start) (content.utf8ByteSize - column))
  s!"TOML parse error at line {number}, column {column + 1}\n" ++
    gutter ++ "\n" ++
    number ++ " | " ++ content ++ "\n" ++
    gutter ++ spaces (column + 1) ++ String.ofList (List.replicate carets '^') ++ "\n" ++
    f.remark ++ "\n"

end ActorSystem.Toml
