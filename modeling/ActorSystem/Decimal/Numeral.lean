/-!
# Texts of numbers

A number is written as digits, with a point in front of them, behind them or among them, and with
a power of ten behind an `e`. It may have a sign, and so may its power of ten. Infinity and what is
not a number are written by name.

* `isNumeral_of_digits`: digits alone are a number.
-/

namespace ActorSystem.Decimal

/-- The texts of the numbers that have no digits, in lower case. -/
def numberNames : List String := ["inf", "infinity", "nan"]

def afterSign : List Char → List Char
  | c :: cs => if c = '+' || c = '-' then cs else c :: cs
  | [] => []

/-- Whether a power of ten is written, or nothing. -/
def isPower : List Char → Bool
  | [] => true
  | e :: cs =>
    let digits := afterSign cs
    (e = 'e' || e = 'E') && !digits.isEmpty && digits.all Char.isDigit

/-- Whether the digits of a number are written, with a power of ten or without. -/
def isMagnitude (cs : List Char) : Bool :=
  let whole := cs.takeWhile Char.isDigit
  match cs.drop whole.length with
  | '.' :: cs =>
    let fraction := cs.takeWhile Char.isDigit
    !(whole.isEmpty && fraction.isEmpty) && isPower (cs.drop fraction.length)
  | rest => !whole.isEmpty && isPower rest

def isNumeral (text : String) : Bool :=
  let cs := afterSign text.toList
  isMagnitude cs || numberNames.contains (String.ofList (cs.map Char.toLower))

theorem takeWhile_isDigit {cs : List Char} (hd : ∀ c ∈ cs, c.isDigit = true) :
    cs.takeWhile Char.isDigit = cs := by
  induction cs with
  | nil => rfl
  | cons c cs ih =>
    rw [List.takeWhile_cons_of_pos (hd c (by simp)), ih fun d h => hd d (by simp [h])]

theorem isMagnitude_of_digits {cs : List Char} (h : cs ≠ []) (hd : ∀ c ∈ cs, c.isDigit = true) :
    isMagnitude cs = true := by
  simp [isMagnitude, takeWhile_isDigit hd, isPower, h]

theorem isNumeral_of_digits {text : String} (h : text.toList ≠ [])
    (hd : ∀ c ∈ text.toList, c.isDigit = true) : isNumeral text = true := by
  have hs : afterSign text.toList = text.toList := by
    cases hc : text.toList with
    | nil => rfl
    | cons c cs =>
      have hcd := hd c (by simp [hc])
      have hn : ¬ (c = '+' ∨ c = '-') := by rintro (rfl | rfl) <;> simp_all
      simp [afterSign, hn]
  simp [isNumeral, hs, isMagnitude_of_digits h hd]

end ActorSystem.Decimal
