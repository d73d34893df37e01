/-!
# The shortest decimal of a floating point number

Among the decimals that read back as a given double, the one with the fewest digits, of those the
nearest, and of two that are as near the larger one. A double is `m * 2 ^ q`; the reals that round
to it form an interval around it, which holds its ends when `m` is even. On the grid of multiples
of a power of ten only the two neighbours of the number need to be tried, so one to seventeen
digits are tried in turn, in exact arithmetic.
-/

namespace ActorSystem.Decimal

/-- The interval of reals that round to one positive double. All three are over `den`. -/
structure Rounding where
  low : Nat
  value : Nat
  high : Nat
  den : Nat
  closed : Bool

/-- The interval around `m * 2 ^ q`. Below a power of two the doubles lie twice as dense, unless
they are the smallest ones. -/
def Rounding.of (m : Nat) (q : Int) : Rounding :=
  let gap := if m = Nat.pow 2 52 ∧ -1074 < q then 1 else 2
  let scale := Nat.pow 2 (q - 2).toNat
  ⟨(4 * m - gap) * scale, 4 * m * scale, (4 * m + 2) * scale, Nat.pow 2 (2 - q).toNat, m % 2 == 0⟩

/-- A natural number of units of `10 ^ unit`. -/
structure Digits where
  count : Nat
  unit : Int
  deriving DecidableEq

/-- `d` over the denominator of `r`, without the factor `10 ^ unit` that is left on the other
side when it is negative. -/
def Rounding.holds (r : Rounding) (d : Digits) : Bool :=
  let x := d.count * Nat.pow 10 d.unit.toNat * r.den
  let s := Nat.pow 10 (-d.unit).toNat
  if r.closed then r.low * s ≤ x && x ≤ r.high * s else r.low * s < x && x < r.high * s

/-- The exponent of the first digit. -/
def Rounding.magnitude (r : Rounding) : Int :=
  if r.den ≤ r.value then ((toString (r.value / r.den)).length : Int) - 1
  else -(((List.range 400).find? fun j => r.den ≤ r.value * Nat.pow 10 j).getD 0 : Nat)

/-- The best decimal with `n` digits, if one of them rounds to the number. After the last one with
`n` digits and a unit comes the first one with the next unit. -/
def Rounding.withDigits (r : Rounding) (n : Nat) : Option Digits :=
  let unit : Int := r.magnitude - n + 1
  let num : Nat := r.value * Nat.pow 10 (-unit).toNat
  let den : Nat := r.den * Nat.pow 10 unit.toNat
  let below : Digits := ⟨num / den, unit⟩
  let above : Digits :=
    if num / den + 1 = Nat.pow 10 n then ⟨Nat.pow 10 (n - 1), unit + 1⟩ else ⟨num / den + 1, unit⟩
  let rest : Nat := num % den
  match r.holds below, r.holds above with
  | true, true => some (if 2 * rest < den then below else above)
  | true, false => some below
  | false, true => some above
  | false, false => none

/-- The shortest decimal; seventeen digits are always enough. -/
def Rounding.shortest (r : Rounding) : Digits :=
  (((List.range 17).map (· + 1)).findSome? r.withDigits).getD ⟨0, 0⟩

/-- Without an exponent, and with at least one digit on either side of the point. -/
def Digits.positional (d : Digits) : String :=
  let digits := (toString d.count).toList
  if 0 ≤ d.unit then
    String.ofList (digits ++ List.replicate d.unit.toNat '0') ++ ".0"
  else
    let places := (-d.unit).toNat
    let padded := List.replicate (places + 1 - digits.length) '0' ++ digits
    let whole := padded.take (padded.length - places)
    let fraction := padded.drop (padded.length - places)
    String.ofList whole ++ "." ++ String.ofList fraction

/-- A floating point number in positional notation. -/
def floatText (x : Float) : String :=
  let bits := x.toBits.toNat
  let sign := if bits / Nat.pow 2 63 = 1 then "-" else ""
  let exponent : Nat := bits / Nat.pow 2 52 % Nat.pow 2 11
  let fraction := bits % Nat.pow 2 52
  if exponent = 2047 then if fraction = 0 then sign ++ "inf" else "NaN"
  else if exponent = 0 ∧ fraction = 0 then sign ++ "0.0"
  else
    let m := if exponent = 0 then fraction else fraction + Nat.pow 2 52
    let q : Int := max exponent 1 - 1075
    sign ++ (Rounding.of m q).shortest.positional

end ActorSystem.Decimal
