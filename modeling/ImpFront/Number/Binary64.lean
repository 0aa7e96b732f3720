import ImpFront.Number.Fraction

/-!
# Double-precision numbers

The numbers of the 64-bit binary interchange format, as what they mean: a
sign with a magnitude `significand · 2 ^ exponent`, an infinity, or not a
number at all. A magnitude is kept in its only form with a significand of
53 bits, or of fewer at the least exponent, so that equal magnitudes are
equal data. All arithmetic is exact, on natural numbers.

## Main results

* `numEq_symm` — numeric equality does not depend on the order.
* `numEq_self_iff` — only what is not a number differs from itself.
-/

namespace ImpFront.Number

/-- A finite magnitude `significand · 2 ^ exponent` in its only form. -/
structure Magnitude where
  significand : Nat
  exponent : Int
  /-- A significand is less than `2 ^ 53`. -/
  significand_lt : significand < 0x20000000000000
  le_exponent : -1074 ≤ exponent
  exponent_le : exponent ≤ 971
  /-- A significand less than `2 ^ 52` stands at the least exponent. -/
  normal : 0x10000000000000 ≤ significand ∨ exponent = -1074
deriving DecidableEq

/-- A double-precision number. -/
inductive Binary64
  | notNumber
  | infinite (negative : Bool)
  | finite (negative : Bool) (magnitude : Magnitude)
deriving DecidableEq

namespace Magnitude

/-- The magnitude with this significand and exponent, if they are its
form. -/
def ofParts? (significand : Nat) (exponent : Int) : Option Magnitude :=
  if h : significand < 0x20000000000000 ∧ -1074 ≤ exponent ∧
      exponent ≤ 971 ∧
      (0x10000000000000 ≤ significand ∨ exponent = -1074) then
    some ⟨significand, exponent, h.1, h.2.1, h.2.2.1, h.2.2.2⟩
  else none

/-- The magnitude of zero. -/
def zero : Magnitude :=
  ⟨0, -1074, by decide, by decide, by decide, .inr rfl⟩

/-- Is the quotient at least `2 ^ k`? -/
def reaches (q : Fraction) (k : Int) : Bool :=
  let scaled := q.timesPower 2 (-k)
  scaled.den ≤ scaled.num

/-- The exponent at which the quotient `q` has 53 bits before the point,
but not less than the least exponent of the format. The lengths of the two
numbers of `q` leave only two candidates. -/
def exponentFor (q : Fraction) : Int :=
  let low : Int := q.num.log2 - q.den.log2 - 53
  max (-1074) (if reaches q (low + 53) then low + 1 else low)

/-- The magnitude nearest to the quotient, an even significand winning a
tie; `none` when it is too large for the format. -/
def nearest? (q : Fraction) : Option Magnitude :=
  let exponent := exponentFor q
  let significand := (q.timesPower 2 (-exponent)).roundHalfEven
  if significand = 0x20000000000000 then
    ofParts? 0x10000000000000 (exponent + 1)
  else ofParts? significand exponent

end Magnitude

namespace Binary64

/-- The number that a word of 64 bits encodes: a sign, eleven bits of
exponent and 52 bits of fraction. -/
def ofBits (bits : UInt64) : Binary64 :=
  let negative : Bool := bits.toNat >>> 63 = 1
  let field : Nat := (bits.toNat >>> 52) % 0x800
  let fraction : Nat := bits.toNat % 0x10000000000000
  if hLast : field = 2047 then
    if fraction = 0 then infinite negative else notNumber
  else if hLeast : field = 0 then
    finite negative
      ⟨fraction, -1074, by omega, by omega, by omega, .inr rfl⟩
  else
    finite negative
      ⟨0x10000000000000 + fraction, field - 1075, by omega, by omega, by omega,
        .inl (by omega)⟩

/-- The number with the sign given that is nearest to a quotient; what is
too large is infinite. -/
def nearest (negative : Bool) (q : Fraction) : Binary64 :=
  match Magnitude.nearest? q with
  | some magnitude => finite negative magnitude
  | none => infinite negative

/-- Equality as numbers: zero has no sign, and what is not a number equals
nothing. -/
def numEq : Binary64 → Binary64 → Bool
  | infinite s, infinite t => s == t
  | finite s m, finite t n => m = n && (s == t || m.significand == 0)
  | _, _ => false

theorem numEq_symm (x y : Binary64) : x.numEq y = y.numEq x := by
  cases x with
  | notNumber => cases y <;> rfl
  | infinite s =>
    cases y with
    | infinite t => exact Bool.beq_comm
    | _ => rfl
  | finite s m =>
    cases y with
    | finite t n =>
      by_cases hSame : m = n
      · subst hSame; simp [numEq, Bool.beq_comm]
      · simp [numEq, hSame, Ne.symm hSame]
    | _ => rfl

theorem numEq_self_iff (x : Binary64) :
    x.numEq x = true ↔ x ≠ notNumber := by
  cases x <;> simp [numEq]

end Binary64

end ImpFront.Number
