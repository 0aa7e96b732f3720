import ImpFront.Number.Decimal

/-!
# The shortest decimal that reads back

Many decimal numbers are read as the same double-precision number. The
one printed for it has the fewest digits, and of those it is the nearest
to the number itself.

The reals that are read as a given magnitude form an interval around it,
whose ends belong to it exactly if the significand is even. A power of ten
`10 ^ k` lays a grid over the reals: the coarser the grid, the fewer
digits its points need. So the search runs from a grid that is too coarse
to finer ones and stops at the first with a point in the interval. If any
point of a grid lies in the interval, so does one of the two neighbours of
the magnitude on that grid, and only these are tried.

## Main results

* `gridPoint?_mem` — the point chosen on a grid lies in the interval.
-/

namespace ImpFront.Number

/-- The reals that are read as one magnitude, measured in quarters of the
unit of its last place. -/
structure Interval where
  low : Nat
  middle : Nat
  high : Nat
  /-- Do the ends belong to the interval? -/
  closed : Bool
deriving DecidableEq, Repr

namespace Interval

/-- The interval around a magnitude reaches half a unit up and half a unit
down; below a power of two the next smaller magnitude is only half as far
away, and so is the end of the interval. -/
def around (m : Magnitude) : Interval :=
  let middle := 4 * m.significand
  let down :=
    if m.significand = 0x10000000000000 ∧ m.exponent ≠ -1074 then 1 else 2
  ⟨middle - down, middle, middle + 2, m.significand % 2 = 0⟩

/-- Does the interval hold the point `point · step`? -/
def holds (interval : Interval) (step : Fraction) (point : Nat) : Bool :=
  let low := interval.low * step.den
  let high := interval.high * step.den
  let value := point * step.num
  if interval.closed then low ≤ value && value ≤ high
  else low < value && value < high

/-- The multiple of `step` in the interval that is nearest to the middle;
of two that are equally near, the larger one. -/
def gridPoint? (interval : Interval) (step : Fraction) : Option Nat :=
  let middle := interval.middle * step.den
  let below := middle / step.num
  let above := below + 1
  if interval.holds step below then
    if interval.holds step above &&
        above * step.num - middle ≤ middle - below * step.num then some above
    else some below
  else if interval.holds step above then some above
  else none

theorem gridPoint?_mem {interval : Interval} {step : Fraction} {point : Nat}
    (h : interval.gridPoint? step = some point) :
    interval.holds step point = true := by
  simp only [gridPoint?] at h
  split at h
  · split at h
    · next hBoth => cases h; exact (Bool.and_eq_true_iff.1 hBoth).1
    · next hBelow _ => cases h; exact hBelow
  · split at h
    · next hAbove => cases h; exact hAbove
    · cases h

end Interval

namespace Magnitude

/-- The distance `10 ^ k` of a grid, in quarters of the last place. -/
def gridStep (m : Magnitude) (k : Int) : Fraction :=
  ((Fraction.ofNat 1).timesPower 10 k).timesPower 2 (2 - m.exponent)

/-- The magnitude itself as a decimal: a negative power of two is a
multiple of the same power of ten. -/
def exactDecimal (m : Magnitude) : Decimal :=
  ⟨m.significand * Nat.pow 2 m.exponent.toNat *
      Nat.pow 5 (-m.exponent).toNat,
    min 0 m.exponent⟩

/-- Search the grids `10 ^ k`, `10 ^ (k - 1)`, … for the first that has a
point in the interval; when `grids` of them are used up, every digit is
kept. -/
def coarsest (m : Magnitude) (k : Int) : Nat → Decimal
  | 0 => m.exactDecimal
  | grids + 1 =>
    match (Interval.around m).gridPoint? (m.gridStep k) with
    | some point => ⟨point, k⟩
    | none => coarsest m (k - 1) grids

/-- A grid that is coarser than the magnitude, told from its length in
binary digits: `2 ^ n` is less than `10 ^ (n · 0.30103 + 1)`. -/
def coarseGrid (m : Magnitude) : Int :=
  (m.significand.log2 + 1 + m.exponent) * 30103 / 100000 + 2

/-- The shortest decimal that is read as the magnitude. The finest grid
needed is the one of the last binary place. -/
def shortest (m : Magnitude) : Decimal :=
  let start := m.coarseGrid
  m.coarsest start (start - min 0 m.exponent + 1).toNat

end Magnitude

/-- Which decimals are written without an exponent: those whose first digit
stands at a power of ten in the range given. -/
structure DecimalLayout where
  least : Int
  greatest : Int
deriving DecidableEq, Repr

namespace Decimal

/-- The decimal digits of a natural number, without leading zeros. -/
def digitChars (n : Nat) : List Char := Nat.toDigits 10 n

/-- A positive decimal in full, with at least one digit on either side of
the point. -/
def positional (d : Decimal) : List Char :=
  let digits := digitChars d.digits
  let places := digits.length + d.exponent
  if 0 ≤ d.exponent then
    digits ++ List.replicate d.exponent.toNat '0' ++ ['.', '0']
  else if 0 < places then
    digits.take places.toNat ++ '.' :: digits.drop places.toNat
  else
    '0' :: '.' :: List.replicate (-places).toNat '0' ++ digits

/-- A positive decimal as one digit, the others behind a point if there
are any, and the power of ten at which the first digit stands. -/
def scientific (d : Decimal) : List Char :=
  let digits := digitChars d.digits
  let power := digits.length + d.exponent - 1
  let mantissa :=
    match digits with
    | first :: second :: rest => first :: '.' :: second :: rest
    | digits => digits
  mantissa ++ 'e' ::
    (if power < 0 then '-' :: digitChars (-power).toNat
      else digitChars power.toNat)

/-- A positive decimal in the one layout or the other. -/
def write (layout : DecimalLayout) (d : Decimal) : List Char :=
  let power := (digitChars d.digits).length + d.exponent - 1
  if layout.least ≤ power ∧ power ≤ layout.greatest then d.positional
  else d.scientific

end Decimal

namespace Binary64

/-- The text of a number: the shortest decimal that reads back, in the
layout given. Zero keeps its sign; what is not a number has none. -/
def write (layout : DecimalLayout) : Binary64 → String
  | notNumber => "NaN"
  | infinite negative => if negative then "-inf" else "inf"
  | finite negative m =>
    let digits :=
      if m.significand = 0 then ['0', '.', '0'] else m.shortest.write layout
    String.ofList (if negative then '-' :: digits else digits)

end Binary64

end ImpFront.Number
