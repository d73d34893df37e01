import ActorSystem.Toml.Quotation
import ActorSystem.Toml.Tree

/-!
# Numbers and dates

An integer has no leading zeros unless it is written in base 16, 8 or 2, and fits into 64 bits
with a sign. A number with a fraction or an exponent, and each of the words for infinity and for
what is not a number, is a floating point number. Digits may be set apart by single underscores.
A date, a time of day, or both together with or without an offset, is one value; its parts are
checked against the calendar and then forgotten.
-/

namespace ActorSystem.Toml

open Reader

def isDigit (c : Char) : Bool := '0' ≤ c && c ≤ '9'

def isDigitIn (base : Nat) (c : Char) : Bool := (hexValue? c).any (· < base)

/-- Digits after a first one, single underscores before them left out. -/
def moreDigits (p : Char → Bool) : Reader (List Char) :=
  many (orElse (one p) (do
    literal ['_']
    committed (expecting ["digit"] (one p))))

def digits (p : Char → Bool) : Reader (List Char) := do return (← one p) :: (← moreDigits p)

def sign : Reader Bool := do return (← optional (one fun c => c = '+' || c = '-')) = some '-'

def decimalValue (digits : List Char) : Nat := (numberIn? 10 digits).getD 0

/-! ## Integers -/

def minInteger : Int := -9223372036854775808

def maxInteger : Int := 9223372036854775807

def inRange (n : Int) : Except String Value :=
  if n < minInteger then .error "number too small to fit in target type"
  else if maxInteger < n then .error "number too large to fit in target type"
  else .ok (.integer n)

/-- An integer in base 16, 8 or 2, with its mark. -/
def basedInteger (base : Nat) (baseName : String) : Reader Value :=
  committed <| checked (fun written => inRange ((numberIn? base written).getD 0)) <|
  naming s!"{baseName} integer" do
    skip 2
    digits (isDigitIn base)

def signed (negative : Bool) (n : Nat) : Int := if negative then -n else n

/-- A sign, which may be left out, and decimal digits without leading zeros. -/
def wholeNumber : Reader (Bool × List Char) := naming "integer" do
  let negative ← sign
  let written ← orElse
    (do return (← one fun c => isDigit c && c ≠ '0') :: (← moreDigits isDigit))
    (do return [← one isDigit])
  return (negative, written)

def decimalInteger : Reader Value := do
  let start ← get
  let (negative, written) ← wholeNumber
  committed (settle start (inRange (signed negative (decimalValue written))))

def integer : Reader Value := do
  match ← lookAhead 2 with
  | ['0', 'x'] => basedInteger 16 "hexadecimal"
  | ['0', 'o'] => basedInteger 8 "octal"
  | ['0', 'b'] => basedInteger 2 "binary"
  | _ => decimalInteger

/-! ## Floating point numbers -/

def signedFloat (negative : Bool) (x : Float) : Float := if negative then -x else x

def fraction : Reader (List Char) := do
  literal ['.']
  committed (expecting ["digit"] (digits isDigit))

def exponent : Reader Int := do
  let _ ← one fun c => c = 'e' || c = 'E'
  let negative ← sign
  return signed negative (decimalValue (← committed (digits isDigit)))

/-- The nearest floating point number to `mantissa * 10 ^ e`. -/
def floatOf (mantissa : Nat) (e : Int) : Float :=
  if e < 0 then Float.ofScientific mantissa true (-e).toNat
  else if mantissa = 0 then 0
  else Float.ofScientific mantissa false (min e.toNat 400)

/-- A number with a fraction, an exponent or both. Too large a number is refused, unless it is
negative. -/
def decimalFloat : Reader Value := do
  let start ← get
  let (negative, whole) ← wholeNumber
  let (places, e) ← orElse (do return ([], ← exponent)) (do
    let places ← fraction
    return (places, (← optional exponent).getD 0))
  let x := floatOf (decimalValue (whole ++ places)) (e - places.length)
  if x.isInf && !negative then
    set start
    committed refuse
  else return .float (signedFloat negative x)

def infinity : Reader Float := do
  literal ['i', 'n', 'f']
  return 1 / 0

def notANumber : Reader Float := do
  literal ['n', 'a', 'n']
  return 0 / 0

def specialFloat : Reader Value := do
  let negative ← sign
  return .float (signedFloat negative (← orElse infinity notANumber))

def float : Reader Value := naming "floating-point number" (orElse decimalFloat specialFloat)

/-! ## Dates and times -/

def fixedDigits (count : Nat) : Reader Nat := do
  let written := (← lookAhead count).takeWhile isDigit
  if written.length < count then refuse
  else
    skip count
    return decimalValue written

/-- Two digits with a value from `low` to `high`. -/
def field (low high : Nat) : Reader Nat :=
  checked (fun n => if low ≤ n && n ≤ high then .ok n else .error outOfRange) (fixedDigits 2)

def isLeapYear (year : Nat) : Bool :=
  year % 4 = 0 && (year % 100 ≠ 0 || year % 400 = 0)

def daysIn (year month : Nat) : Nat :=
  if month = 2 then if isLeapYear year then 29 else 28
  else if month = 4 || month = 6 || month = 9 || month = 11 then 30
  else 31

/-- A year and a dash make it a date. -/
def date : Reader Unit := do
  let year ← fixedDigits 4
  literal ['-']
  committed do
    let month ← field 1 12
    literal ['-']
    let _ ← field 1 (daysIn year month)

/-- An hour and a colon make it a time of day. -/
def time : Reader Unit := do
  let _ ← field 0 23
  literal [':']
  committed do
    let _ ← field 0 59
    literal [':']
    let _ ← field 0 60
    let _ ← optional do
      literal ['.']
      takeSome isDigit

def timeOffset : Reader Unit := naming "time offset" <|
  orElse (do let _ ← one fun c => c = 'Z' || c = 'z') (do
    let _ ← one fun c => c = '+' || c = '-'
    committed do
      let _ ← field 0 23
      literal [':']
      let _ ← field 0 59)

def datetime : Reader Value := do
  orElse
    (naming "date-time" do
      date
      let _ ← optional do
        let _ ← one fun c => c = 'T' || c = 't' || c = ' '
        time
        optional timeOffset)
    (naming "time" time)
  return .datetime

def numeral : Reader Value := orElse datetime (orElse float integer)

end ActorSystem.Toml
