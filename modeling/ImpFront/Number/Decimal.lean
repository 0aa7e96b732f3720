import ImpFront.Number.Binary64

/-!
# Numbers written in decimal

Reading: a text of digits, with a point and a decimal exponent allowed,
stands for an exact decimal number, and the double-precision number read
from it is the nearest one. `integer?` reads whole numbers of 64 bits.

## Main results

* `integer?_range` — what `integer?` reads lies in the range of 64 bits.
-/

namespace ImpFront.Number

/-- The number that a list of decimal digits denotes. -/
def ofDigits (digits : List Char) : Nat :=
  digits.foldl (fun n d => 10 * n + (d.toNat - '0'.toNat)) 0

/-- A non-empty list of decimal digits, as a number. -/
def digits? (text : List Char) : Option Nat :=
  if text ≠ [] ∧ text.all Char.isDigit then some (ofDigits text) else none

/-- Split off a sign; the flag says whether it was a minus. -/
def splitSign : List Char → Bool × List Char
  | '-' :: text => (true, text)
  | '+' :: text => (false, text)
  | text => (false, text)

/-- A whole number with or without a sign. -/
def signed? (text : List Char) : Option Int :=
  match splitSign text with
  | (true, rest) => (digits? rest).map fun n => -n
  | (false, rest) => (digits? rest).map fun n => n

/-- Does `n` fit into a signed word of 64 bits? -/
def fitsWord (n : Int) : Bool :=
  -9223372036854775808 ≤ n && n ≤ 9223372036854775807

/-- A whole number with or without a sign that fits into 64 bits. -/
def integer? (text : String) : Option Int :=
  (signed? text.toList).filter fitsWord

theorem integer?_range {text : String} {n : Int}
    (h : integer? text = some n) :
    -9223372036854775808 ≤ n ∧ n ≤ 9223372036854775807 := by
  have hFits := (Option.filter_eq_some_iff.1 h).2
  simpa [fitsWord] using hFits

/-- The decimal number `digits · 10 ^ exponent`. -/
structure Decimal where
  digits : Nat
  exponent : Int
deriving DecidableEq, Repr

namespace Decimal

/-- The exponent that may end a decimal number: empty, or `e` with a whole
number behind it. -/
def exponent? : List Char → Option Int
  | [] => some 0
  | c :: text => if c = 'e' ∨ c = 'E' then signed? text else none

/-- A decimal number without a sign: digits with at most one point among
them, at least one digit, and possibly an exponent. -/
def read? (text : List Char) : Option Decimal := do
  let whole := text.takeWhile Char.isDigit
  let (places, rest) :=
    match text.dropWhile Char.isDigit with
    | '.' :: rest => (rest.takeWhile Char.isDigit, rest.dropWhile Char.isDigit)
    | rest => ([], rest)
  let mantissa ← digits? (whole ++ places)
  let exponent ← exponent? rest
  return ⟨mantissa, exponent - places.length⟩

/-- The quotient that a decimal number is. -/
def fraction (d : Decimal) : Fraction :=
  (Fraction.ofNat d.digits).timesPower 10 d.exponent

/-- The nearest double-precision number. Numbers far beyond the format on
either side are told by the size of their exponents alone, so that no
power of ten needs to be larger than the digits make it. -/
def toBinary64 (negative : Bool) (d : Decimal) : Binary64 :=
  if d.digits = 0 then .finite negative .zero
  else if 400 < d.exponent then .infinite negative
  else if d.digits.log2 + 1 + d.exponent < -400 then .finite negative .zero
  else .nearest negative d.fraction

end Decimal

/-- The double-precision number that a text denotes: a decimal number, or
in letters of either case an infinity or what is not a number, each with a
sign allowed in front. -/
def real? (text : String) : Option Binary64 :=
  let (negative, body) := splitSign text.toList
  let word := String.ofList (body.map Char.toLower)
  if word = "inf" ∨ word = "infinity" then some (.infinite negative)
  else if word = "nan" then some .notNumber
  else (Decimal.read? body).map (·.toBinary64 negative)

end ImpFront.Number
