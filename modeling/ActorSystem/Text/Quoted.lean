import ActorSystem.Text.CharClass

/-!
# Quoted texts

A text inside a structured description stands between double quotes. Quotes, backslashes and
the four common controls get a backslash and a letter; every other character that does not
print, or that would merge with the quote before it, is written by its code point.

* `quote_empty`: the empty text is two quotes.
* `escape_plain`: a printable ASCII character other than the quote and the backslash stands
  for itself.
-/

namespace ActorSystem.Text

/-- The lower-case hexadecimal digits of `n`, without leading zeros. -/
def hexDigits (n : Nat) : String := String.ofList (Nat.toDigits 16 n)

/-- `n` in hexadecimal, padded with zeros on the left to `width` digits. -/
def paddedHex (width n : Nat) : String :=
  let digits := Nat.toDigits 16 n
  String.ofList (List.replicate (width - digits.length) '0' ++ digits)

/-- The written form of one character between double quotes. -/
def escape (c : Char) : String :=
  match c with
  | '\x00' => "\\0"
  | '\t' => "\\t"
  | '\n' => "\\n"
  | '\r' => "\\r"
  | '\x22' => "\\\""
  | '\\' => "\\\\"
  | c =>
    if isPrintable c && !extendsGrapheme c then c.toString
    else "\\u\x7b" ++ hexDigits c.toNat ++ "\x7d"

def quote (s : String) : String :=
  "\"" ++ String.join (s.toList.map escape) ++ "\""

theorem quote_empty : quote "" = "\"\"" := rfl

theorem escape_plain {c : Char} (low : 0x20 ≤ c.toNat) (high : c.toNat < 0x7f)
    (hq : c ≠ '\x22') (hb : c ≠ '\\') : escape c = c.toString := by
  have hne : ∀ d : Char, d.toNat < 0x20 → c ≠ d := by
    rintro d hd rfl
    exact absurd low (by omega)
  have h0 : c ≠ '\x00' := hne _ (by decide)
  have h1 : c ≠ '\t' := hne _ (by decide)
  have h2 : c ≠ '\n' := hne _ (by decide)
  have h3 : c ≠ '\r' := hne _ (by decide)
  have hp : isPrintable c = true := by simp [isPrintable, high, low]
  have hx : extendsGrapheme c = false := by
    simp only [extendsGrapheme, Bool.and_eq_false_iff, decide_eq_false_iff_not]
    exact Or.inl (by omega)
  unfold escape
  split <;> simp_all

end ActorSystem.Text
