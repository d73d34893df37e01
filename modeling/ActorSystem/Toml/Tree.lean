import ActorSystem.Toml.Fault

/-!
# Documents as trees

A document is a table: keys with values, with tables, or with lists of tables. A table is made
by a header, on the way to a header's table, or by a dotted key; which of them decides whether it
may still be added to.

* A key is given once.
* A header may name a table that exists only because it was on the way to another one.
* A dotted key adds only to tables that were made by dotted keys.

A complaint about a header shows its last key the way a document writes it.

* `written_of_bare`: a key that needs no quotes is written as it is.
-/

namespace ActorSystem.Toml

inductive Making where
  /-- By a header of its own, by braces, or as the whole document. -/
  | explicit
  /-- On the way to the table of a header. -/
  | implied
  /-- By a dotted key. -/
  | dotted
  deriving DecidableEq

structure Key where
  name : String
  span : Span
  deriving DecidableEq

mutual

inductive Value where
  | string (s : String)
  | integer (n : Int)
  | float (x : Float)
  | boolean (b : Bool)
  | datetime
  | array (items : List Value)
  | inline (t : Table)

/-- What a key stands for. A value comes with the place where it is written. -/
inductive Item where
  | value (v : Value) (span : Span)
  | table (t : Table)
  | tables (ts : List Table)

inductive Table where
  | mk (making : Making) (span : Option Span) (entries : List (Key × Item))

end

namespace Table

def making : Table → Making
  | mk making _ _ => making

/-- Where the table is written, if it has a header or braces. -/
def span : Table → Option Span
  | mk _ span _ => span

/-- In the order in which the keys were first given. -/
def entries : Table → List (Key × Item)
  | mk _ _ entries => entries

def fresh (making : Making) : Table := mk making none []

def find? (t : Table) (name : String) : Option Item :=
  (t.entries.find? (·.1.name == name)).map (·.2)

/-- Gives `k` the item, in its old place if it has one. -/
def set (t : Table) (k : Key) (item : Item) : Table :=
  if t.entries.any (·.1.name == k.name) then
    mk t.making t.span (t.entries.map fun e => if e.1.name == k.name then (e.1, item) else e)
  else mk t.making t.span (t.entries ++ [(k, item)])

def erase (t : Table) (name : String) : Table :=
  mk t.making t.span (t.entries.filter (·.1.name ≠ name))

/-- Stretches the place of the table to `stop`. -/
def extendTo (t : Table) (stop : Nat) : Table :=
  mk t.making (t.span.map fun s => ⟨s.start, stop⟩) t.entries

end Table

namespace Value

def kindName : Value → String
  | string _ => "string"
  | integer _ => "integer"
  | float _ => "float"
  | boolean _ => "boolean"
  | datetime => "datetime"
  | array _ => "array"
  | inline _ => "inline table"

end Value

/-- Where an item is written, if at one place. -/
def Item.span : Item → Option Span
  | value _ span => some span
  | table t => t.span
  | tables ts =>
    match ts.head?.bind Table.span, ts.getLast?.bind Table.span with
    | some a, some b => some ⟨a.start, b.stop⟩
    | _, _ => none

/-! ## Keys in writing -/

def isBareKeyChar (c : Char) : Bool := c.isAlphanum || c = '_' || c = '-'

def isBareKey (name : String) : Bool := !name.isEmpty && name.toList.all isBareKeyChar

/-- The escape of a character between double quotes, where it needs one. -/
def escapedInKey (c : Char) : String :=
  match c with
  | '\x08' => "\\b"
  | '\t' => "\\t"
  | '\n' => "\\n"
  | '\x0c' => "\\f"
  | '\r' => "\\r"
  | '\x22' => "\\\""
  | '\\' => "\\\\"
  | c => if c < ' ' || c = '\x7f' then "\\u" ++ paddedHex c.toNat else c.toString
where
  paddedHex (n : Nat) : String :=
    let digits := (Nat.toDigits 16 n).map Char.toUpper
    String.ofList (List.replicate (4 - digits.length) '0' ++ digits)

/-- A key as a document writes it: without quotes if it can be, else between double quotes if
nothing has to be escaped there but tabs, else between single quotes if that is possible. -/
def writtenKey (name : String) : String :=
  let hasControls := name.toList.any fun c => (c < ' ' && c ≠ '\t') || c = '\x7f'
  let hasAny (cs : List Char) := name.toList.any (cs.contains ·)
  if isBareKey name then name
  else if !(hasControls || hasAny ['\x22', '\\']) || hasControls || hasAny ['\x27'] then
    "\"" ++ String.join (name.toList.map escapedInKey) ++ "\""
  else s!"'{name}'"

theorem written_of_bare {name : String} (h : isBareKey name = true) : writtenKey name = name := by
  simp [writtenKey, h]

/-! ## Growing a document -/

def joinKeys (path : List Key) : String := ".".intercalate (path.map (·.name))

def duplicateKey (k : Key) : String := s!"duplicate key `{k.name}`"

/-- The key `name` is there already, in the table at `home`. -/
def duplicateIn (home : List Key) (name : String) : String :=
  s!"duplicate key `{name}` in " ++
    if home.isEmpty then "document root" else s!"table `{joinKeys home}`"

def notATable (path : List Key) (v : Value) : String :=
  s!"dotted key `{joinKeys path}` attempted to extend non-table type ({v.kindName})"

namespace Table

/-- Changes the table at the end of a path, making tables on the way. A list of tables stands for
its last one. With `dotted` the way leads only through tables that no header made. -/
def alter (dotted : Bool) (f : Table → Except String Table) (above : List Key) :
    List Key → Table → Except String Table
  | [], t => f t
  | k :: rest, t => do
    let below := above ++ [k]
    match t.find? k.name with
    | none =>
      let made := fresh (if dotted then .dotted else .implied)
      return t.set k (.table (← made.alter dotted f below rest))
    | some (.value v _) => throw (notATable below v)
    | some (.tables ts) =>
      match ts.getLast? with
      | none => throw (duplicateKey k)
      | some last => return t.set k (.tables (ts.dropLast ++ [← last.alter dotted f below rest]))
    | some (.table inner) =>
      if dotted && inner.making == .explicit then throw (duplicateKey k)
      else return t.set k (.table (← inner.alter dotted f below rest))

/-- The first key of a path that stands for a value in braces. -/
def inlineOnTheWay : List Key → Table → Option Key
  | [], _ => none
  | k :: rest, t =>
    match t.find? k.name with
    | some (.value (.inline _) _) => some k
    | some (.table inner) => inner.inlineOnTheWay rest
    | _ => none

/-- Gives a key its value, or complains that it has one. `dotted` says whether the key is the last
part of a dotted one. -/
def give (dotted : Bool) (complaint : String) (k : Key) (v : Value) (span : Span) (t : Table) :
    Except String Table :=
  if (t.making == .dotted) != dotted then throw (duplicateKey k)
  else if (t.find? k.name).isSome then throw complaint
  else return t.set k (.value v span)

/-- Adds `path = v` to the table at `home`. -/
def insert (home path : List Key) (v : Value) (span : Span) (t : Table) : Except String Table :=
  match path.getLast? with
  | none => return t
  | some k =>
    let way := path.dropLast
    t.alter false (fun current => do
      let complaint := duplicateIn home k.name
      let current ← current.alter true (give (!way.isEmpty) complaint k v span) [] way
      return current.extendTo span.stop) [] home

/-- Adds `path = v` to a table in braces. A dotted key that leads through a value in braces gives
that value a second time. -/
def insertInline (path : List Key) (v : Value) (span : Span) (t : Table) : Except String Table :=
  match path.getLast? with
  | none => return t
  | some k =>
    let way := path.dropLast
    match t.inlineOnTheWay way with
    | some taken => throw (duplicateKey taken)
    | none => t.alter true (give (!way.isEmpty) (duplicateKey k) k v span) [] way

def openTable (path : List Key) (span : Span) (t : Table) : Except String Table :=
  match path.getLast? with
  | none => return t
  | some k =>
    t.alter false (fun parent =>
      match parent.find? k.name with
      | none => return parent.set k (.table (mk .explicit (some span) []))
      | some (.table inner) =>
        if inner.making == .implied then
          return (parent.erase k.name).set k (.table (mk .explicit (some span) inner.entries))
        else throw (duplicateIn path.dropLast (writtenKey k.name))
      | some _ => throw (duplicateIn path.dropLast (writtenKey k.name))) [] path.dropLast

def openNextTable (path : List Key) (span : Span) (t : Table) : Except String Table :=
  match path.getLast? with
  | none => return t
  | some k =>
    let next := mk .explicit (some span) []
    t.alter false (fun parent =>
      match parent.find? k.name with
      | none => return parent.set k (.tables [next])
      | some (.tables ts) => return parent.set k (.tables (ts ++ [next]))
      | some _ => throw (duplicateIn path.dropLast (writtenKey k.name))) [] path.dropLast

end Table

end ActorSystem.Toml
