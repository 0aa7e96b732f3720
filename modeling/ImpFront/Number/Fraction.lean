/-!
# Fractions that are scaled and rounded

A fraction here is a numerator over a denominator, both natural and never
reduced: only scaling by the power of a base and rounding to a whole
number are needed, and both are exact on the pair.

## Main results

* `roundHalfEven_mul_le`, `le_roundHalfEven_mul` — the rounded number is at
  most half a unit away.
-/

namespace ImpFront.Number

/-- The quotient `num / den`; its denominator is meant to be positive. -/
structure Fraction where
  num : Nat
  den : Nat
deriving DecidableEq, Repr

namespace Fraction

/-- The whole number `n`. -/
def ofNat (n : Nat) : Fraction := ⟨n, 1⟩

/-- The fraction times `base ^ k`, where `k` may be negative. -/
def timesPower (q : Fraction) (base : Nat) (k : Int) : Fraction :=
  ⟨q.num * Nat.pow base k.toNat, q.den * Nat.pow base (-k).toNat⟩

/-- The largest whole number that does not exceed the fraction. -/
def floor (q : Fraction) : Nat := q.num / q.den

/-- The nearest whole number; of two that are equally near, the even one. -/
def roundHalfEven (q : Fraction) : Nat :=
  let below := q.floor
  let twiceRest := 2 * (q.num % q.den)
  if twiceRest < q.den then below
  else if q.den < twiceRest then below + 1
  else below + below % 2

/-- The rounded number exceeds the fraction by half a unit at most. -/
theorem roundHalfEven_mul_le (q : Fraction) :
    2 * (q.roundHalfEven * q.den) ≤ 2 * q.num + q.den := by
  have hSplit := Nat.div_add_mod q.num q.den
  have hParity : q.num / q.den % 2 = 0 ∨ q.num / q.den % 2 = 1 := by omega
  rw [Nat.mul_comm] at hSplit
  simp only [roundHalfEven, floor]
  generalize q.num / q.den = below at *
  split
  · omega
  · split
    · rw [Nat.add_mul]; omega
    · rcases hParity with h | h <;> rw [h, Nat.add_mul] <;> omega

/-- The fraction exceeds the rounded number by half a unit at most. -/
theorem le_roundHalfEven_mul (q : Fraction) (hPos : 0 < q.den) :
    2 * q.num ≤ 2 * (q.roundHalfEven * q.den) + q.den := by
  have hSplit := Nat.div_add_mod q.num q.den
  have hParity : q.num / q.den % 2 = 0 ∨ q.num / q.den % 2 = 1 := by omega
  rw [Nat.mul_comm] at hSplit
  simp only [roundHalfEven, floor]
  generalize q.num / q.den = below at *
  split
  · omega
  · split
    · have hRest := Nat.mod_lt q.num hPos
      rw [Nat.add_mul]
      omega
    · rcases hParity with h | h <;> rw [h, Nat.add_mul] <;> omega

end Fraction

end ImpFront.Number
