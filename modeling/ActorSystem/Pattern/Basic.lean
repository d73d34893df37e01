/-!
# Patterns

A pattern says which texts a field may have. It is made of atoms, each of which stands for a
character or for a place between characters. Atoms are repeated and grouped, put one after the
other, or beside each other for a choice.

A pattern can change the mode in which its characters are taken. Settings are for what follows
them, up to the end of the group that they are in; a group may bring settings for itself.

No pattern is ever compared with a text here, because events do not carry the spans whose fields
could have one. So a pattern keeps only what decides whether it can be used at all.

* `atoms_group_snd`: what is set in a group ends with it.
* `atomsOfAll_append`: the mode is handed on from left to right.
-/

namespace ActorSystem

namespace Pattern

inductive Flag where
  /-- Letters stand for those of the other case too. -/
  | caseless
  /-- Anchors are at the ends of lines. -/
  | lines
  /-- A dot stands for the end of a line too. -/
  | dotAll
  /-- Repetitions take as little as they can. -/
  | sparing
  /-- Characters are all those of Unicode, not of ASCII. -/
  | unicode
  /-- A carriage return may end a line. -/
  | carriageReturn
  /-- Space and comments between the parts of a pattern stand for nothing. -/
  | verbose
  deriving DecidableEq

abbrev Settings := List (Flag × Bool)

structure Mode where
  caseless : Bool := false
  unicode : Bool := true
  deriving DecidableEq

def Mode.set (m : Mode) (s : Settings) : Mode where
  caseless := (s.lookup .caseless).getD m.caseless
  unicode := (s.lookup .unicode).getD m.unicode

structure Literal where
  char : Char
  /-- It is written as the two digits of a byte. -/
  isByte : Bool := false
  deriving DecidableEq

inductive CharSet where
  | nothing
  | one (l : Literal)
  | range (low high : Literal)
  /-- A set that is written by its name, or what is not in it. -/
  | named (negated : Bool)
  /-- The digits, the space or the words, by one letter, or what is not in them. -/
  | shorthand (negated : Bool)
  /-- What is in a pair of brackets, or what is not. -/
  | bracketed (negated : Bool) (s : CharSet)
  | union (sets : List CharSet)
  /-- What two sets have in common, or what only one of them has. -/
  | operation (s t : CharSet)

inductive Atom where
  | literal (l : Literal)
  | dot
  | anchor
  | boundary
  | oneOf (s : CharSet)

end Pattern

inductive Pattern where
  | empty
  | atom (a : Pattern.Atom)
  | settings (s : Pattern.Settings)
  | repetition (p : Pattern)
  | group (s : Pattern.Settings) (p : Pattern)
  | sequence (ps : List Pattern)
  | choice (ps : List Pattern)

namespace Pattern

/-! ## Nesting -/

mutual

def CharSet.depth : CharSet → Nat
  | .nothing | .one _ | .range _ _ | .named _ | .shorthand _ => 0
  | .bracketed _ s => s.depth + 1
  | .union sets => CharSet.depthOfAll sets + 1
  | .operation s t => max s.depth t.depth + 1

def CharSet.depthOfAll : List CharSet → Nat
  | [] => 0
  | s :: sets => max s.depth (CharSet.depthOfAll sets)

end

def Atom.depth : Atom → Nat
  | .oneOf s => s.depth
  | _ => 0

mutual

def depth : Pattern → Nat
  | .empty | .settings _ => 0
  | .atom a => a.depth
  | .repetition p | .group _ p => depth p + 1
  | .sequence ps | .choice ps => depthOfAll ps + 1

def depthOfAll : List Pattern → Nat
  | [] => 0
  | p :: ps => max (depth p) (depthOfAll ps)

end

/-! ## Modes -/

mutual

/-- The atoms of a pattern, each with the mode that it is taken in, and the mode for what follows
the pattern. -/
def atoms (m : Mode) : Pattern → List (Mode × Atom) × Mode
  | .empty => ([], m)
  | .atom a => ([(m, a)], m)
  | .settings s => ([], m.set s)
  | .repetition p => atoms m p
  | .group s p => ((atoms (m.set s) p).1, m)
  | .sequence ps | .choice ps => atomsOfAll m ps

def atomsOfAll (m : Mode) : List Pattern → List (Mode × Atom) × Mode
  | [] => ([], m)
  | p :: ps =>
    let first := atoms m p
    let others := atomsOfAll first.2 ps
    (first.1 ++ others.1, others.2)

end

theorem atoms_group_snd (m : Mode) (s : Settings) (p : Pattern) : (atoms m (.group s p)).2 = m := by
  simp [atoms]

theorem atomsOfAll_append (m : Mode) (ps qs : List Pattern) :
    atomsOfAll m (ps ++ qs) =
      ((atomsOfAll m ps).1 ++ (atomsOfAll (atomsOfAll m ps).2 qs).1,
        (atomsOfAll (atomsOfAll m ps).2 qs).2) := by
  induction ps generalizing m with
  | nil => simp [atomsOfAll]
  | cons p ps ih => simp [atomsOfAll, ih]

end Pattern

end ActorSystem
