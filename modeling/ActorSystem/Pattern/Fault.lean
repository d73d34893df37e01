import ActorSystem.Pattern.Reader

/-!
# Patterns that cannot be used

A pattern has to be readable, and its parts not nested too deep. What its atoms may be depends on
the mode they are taken in.

* In Unicode mode there are neither shorthands nor, if case is ignored, any characters at all: the
  tables that tell which characters are meant are not there. A boundary between words has a fault
  of its own, which counts only if there is no other one.
* Without it a character is ASCII, unless it stands outside of a set and is not written as a byte.
  A dot, and whatever is negated, would stand for parts of a character.

* `fault?_eq_none_iff`: when a pattern in a text can be used.
-/

namespace ActorSystem.Pattern

def Literal.fitsSet (l : Literal) (m : Mode) : Bool :=
  if m.unicode then !m.caseless else l.char.toNat < 0x80

mutual

def CharSet.fits (m : Mode) : CharSet → Bool
  | .nothing => true
  | .one l => l.fitsSet m
  | .range low high => low.fitsSet m && high.fitsSet m
  | .named negated => if m.unicode then !m.caseless else !negated
  | .shorthand negated => !m.unicode && !negated
  | .bracketed negated s => (m.unicode || !negated) && CharSet.fits m s
  | .union sets => CharSet.allFit m sets
  | .operation s t => CharSet.fits m s && CharSet.fits m t

def CharSet.allFit (m : Mode) : List CharSet → Bool
  | [] => true
  | s :: sets => CharSet.fits m s && CharSet.allFit m sets

end

def Atom.fits (m : Mode) : Atom → Bool
  | .literal l => if m.unicode then !m.caseless else !l.isByte || l.char.toNat < 0x80
  | .dot => m.unicode
  | .anchor | .boundary => true
  | .oneOf s => s.fits m

def Atom.isBoundary : Atom → Bool
  | .boundary => true
  | _ => false

def depthLimit : Nat := 250

inductive Fault where
  | malformed
  | wordBoundary
  deriving DecidableEq

def Fault.message : Fault → String
  | malformed => "error building NFA"
  | wordBoundary =>
    "unsupported regex feature for DFAs: cannot build DFAs for regexes with Unicode word " ++
      "boundaries; switch to ASCII word boundaries, or heuristically enable Unicode word " ++
      "boundaries or use a different regex engine"

def isSound (p : Pattern) : Bool :=
  p.depth ≤ depthLimit && (p.atoms {}).1.all fun (m, a) => a.fits m

/-- Whether a pattern asks where words start or end, and not only words of ASCII. -/
def hasUnicodeBoundary (p : Pattern) : Bool :=
  (p.atoms {}).1.any fun (m, a) => m.unicode && a.isBoundary

def fault? (text : String) : Option Fault :=
  match ofString? text with
  | none => some .malformed
  | some p =>
    if !p.isSound then some .malformed
    else if p.hasUnicodeBoundary then some .wordBoundary
    else none

theorem fault?_eq_none_iff (text : String) :
    fault? text = none ↔
      ∃ p, ofString? text = some p ∧ p.isSound = true ∧ p.hasUnicodeBoundary = false := by
  unfold fault?
  split
  · simp_all
  · rename_i p h
    cases hs : p.isSound <;> cases hb : p.hasUnicodeBoundary <;> simp [h, hs, hb]

end ActorSystem.Pattern
