import ActorSystem.Toml.Number

/-!
# Whole documents

Keys, values and headers, and a document made of lines of them. Values in brackets or braces nest
at most 79 levels deep, and a key has fewer than 80 parts.

The first character of a line says what it holds, and a line that is refused refuses the
document. The one exception is a carriage return without a line feed, which ends the document
before its end.
-/

namespace ActorSystem.Toml

open Reader

def nestingLimit : Nat := 80

def tooDeep : String := "recursion limit exceeded"

/-! ## Keys -/

def simpleKey : Reader Key := do
  let start ← offset
  let name ← match ← peek with
    | some '\x22' => escapedText
    | some '\x27' => verbatimText
    | _ => takeSome isBareKeyChar
  return ⟨String.ofList name, ⟨start, ← offset⟩⟩

/-- A key, with blanks around each of its parts. -/
def dottedKey : Reader (List Key) :=
  checked (fun path => if path.length < nestingLimit then .ok path else .error tooDeep) <|
  naming "key" <|
  separatedSome (do
    blanks
    let k ← simpleKey
    blanks
    return k) (literal ['.'])

/-- A key, and a value that it must have. The last part is where the value is written; `after`
reads what must come after it. -/
def keyValue (value : Reader Value) (after : Reader Unit) : Reader (List Key × Value × Span) := do
  let path ← dottedKey
  committed do
    expecting ["`.`", "`=`"] (literal ['='])
    blanks
    let start ← offset
    let v ← value
    let stop ← offset
    after
    return (path, v, ⟨start, stop⟩)

/-! ## Values -/

/-- A value in an array, with the empty lines around it. -/
def arrayItem (value : Reader Value) : Reader Value := do
  emptyLines
  let v ← value
  emptyLines
  return v

def array (value : Reader Value) : Reader Value := do
  literal ['[']
  let items ← committed do
    if (← peek) = some ']' then return []
    else
      let items ← separated (arrayItem value) (literal [','])
      unless items.isEmpty do
        let _ ← optional (literal [','])
      emptyLines
      return items
  expecting ["`]`"] (naming "array" (committed (literal [']'])))
  return .array items

def inlineTableOf (entries : List (List Key × Value × Span)) : Except String Table :=
  entries.foldlM (fun t e => t.insertInline e.1 e.2.1 e.2.2) (.fresh .explicit)

def inlineTable (value : Reader Value) : Reader Value := do
  literal ['\x7b']
  let t ← committed <| checked inlineTableOf do
    let entries ← separated (keyValue value blanks) (literal [','])
    blanks
    return entries
  expecting ["`\x7d`"] (naming "inline table" (committed (literal ['\x7d'])))
  return .inline t

/-- What is taken for a text whose quotes were forgotten. -/
def unquoted (r : Reader Value) : Reader Value := expecting ["`\"`", "`'`"] (naming "string" r)

def boolean (b : Bool) : Reader Value := do
  committed (literal (toString b).toList)
  return .boolean b

/-- A value; `array` and `inlineTable` read what is in brackets and in braces. -/
def valueWith (array inlineTable : Reader Value) : Reader Value := do
  match ← peek with
  | some '\x22' | some '\x27' => .string <$> quotation
  | some '[' => array
  | some '\x7b' => inlineTable
  | some '_' => expecting ["leading digit"] integer
  | some '.' => expecting ["leading digit"] float
  | some 't' => unquoted (boolean true)
  | some 'f' => unquoted (boolean false)
  | some 'i' => unquoted (.float <$> infinity)
  | some 'n' => unquoted (.float <$> notANumber)
  | some c => if isDigit c || c = '+' || c = '-' then numeral else unquoted refuse
  | none => refuse

/-- A value with at most so many levels of brackets and braces. -/
def value : Nat → Reader Value
  | 0 => valueWith (committed (refuseFor tooDeep)) (committed (refuseFor tooDeep))
  | levels + 1 => valueWith (array (value levels)) (inlineTable (value levels))

/-! ## Lines -/

/-- A document in the making: what is there, and the table that lines add to. -/
structure Draft where
  root : Table
  home : List Key

/-- The header of a table, or of the next table of a list, and the rest of its line. -/
def header (d : Draft) : Reader Draft := naming "table header" do
  let start ← get
  let ahead ← lookAhead 2
  if ahead.length < 2 then refuse
  else
    let isList : Bool := ahead = ['[', '[']
    literal (if isList then ['[', '['] else ['['])
    let path ← dottedKey
    if isList then expecting ["`.`", "`]]`"] (literal [']', ']'])
    else expecting ["`.`", "`]`"] (literal [']'])
    let span : Span := ⟨start.offset, ← offset⟩
    restOfLine
    let root ← settle start
      (if isList then d.root.openNextTable path span else d.root.openTable path span)
    return ⟨root, path⟩

def entry (d : Draft) : Reader Draft := do
  let start ← get
  let (path, v, span) ← keyValue (value (nestingLimit - 1)) restOfLine
  let root ← settle start (d.root.insert d.home path v span)
  return { d with root }

def line (d : Draft) : Reader Draft := do
  match ← peek with
  | none => refuse
  | some '#' => committed do
    comment
    lineEndOrEnd
    return d
  | some '[' => committed (header d)
  | some '\n' | some '\r' =>
    lineEnd
    return d
  | some _ => committed (entry d)

def lines : Nat → Draft → Reader Draft
  | 0, d => return d
  | fuel + 1, d => do
    match ← optional (line d) with
    | some d =>
      blanks
      lines fuel d
    | none => return d

/-- Reads a document. A byte order mark at its start does not count. -/
def document : Reader Table := do
  let _ ← optional (literal ['\ufeff'])
  blanks
  let d ← lines (← get).size ⟨.fresh .explicit, []⟩
  endOfInput
  return d.root

/-- The document in a text, or the fault at the place where reading it stopped. -/
def parse (text : String) : Except Fault Table :=
  match (ExceptT.run document).run (Input.ofString text) with
  | (.ok t, _) => .ok t
  | (.error e, i) => .error ⟨i.span, e.remark⟩

end ActorSystem.Toml
