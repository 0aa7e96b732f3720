import Mathlib.Data.Nat.Digits.Lemmas
import ImpFront.Literal
import ImpFront.Proofs.Source.Constants

/-!
# What digits denote

The digits of a whole number are summed up from the left and without a bound,
and only the sum is compared with the largest word. So the number of digits
plays no part and zeros in front change nothing. What digits denote is said by
`placeValue`, each digit counting for its power of ten; that the sum comes to
the same is shown by induction on the digits from the right.

## Main results

* `ofDigits_eq` — the sum is what the digits denote.
* `integer?_eq` — it is read if it fits into a word.
* `placeValue_toDigits` — a number is denoted by the digits it is written
  with.
-/

namespace ImpFront

namespace Number

open Source (IsDigits)

/-- What decimal digits denote: each of them counts for its power of ten. -/
def placeValue (digits : List Char) : Nat :=
  Nat.ofDigits 10 (digits.reverse.map fun c => c.toNat - '0'.toNat)

/-- The largest number that fits into a signed word. -/
def largestWord : Nat := 9223372036854775807

/-- Summing up from the left gives every digit its power of ten. -/
theorem ofDigits_eq (digits : List Char) :
    ofDigits digits = placeValue digits := by
  induction digits using List.reverseRecOn with
  | nil => rfl
  | append_singleton digits c ih =>
      have hLeft : ofDigits (digits ++ [c]) =
          10 * ofDigits digits + (c.toNat - '0'.toNat) := by
        simp only [ofDigits, List.foldl_append, List.foldl_cons, List.foldl_nil]
      have hRight : placeValue (digits ++ [c]) =
          (c.toNat - '0'.toNat) + 10 * placeValue digits := by
        simp only [placeValue, List.reverse_append, List.reverse_singleton,
          List.singleton_append, List.map_cons, Nat.ofDigits_cons]
      rw [hLeft, hRight, ih]
      omega

/-- The digits that a number is written with denote it. -/
theorem placeValue_toDigits (n : Nat) : placeValue (Nat.toDigits 10 n) = n := by
  rw [← ofDigits_eq]
  exact Nat.ofDigitChars_ten_toDigits

theorem isDigits_toDigits (n : Nat) : IsDigits (Nat.toDigits 10 n) :=
  fun _ hMem => Nat.isDigit_of_mem_toDigits (by decide) (by decide) hMem

theorem fitsWord_iff (n : Nat) : fitsWord n = true ↔ n ≤ largestWord := by
  rw [fitsWord, Bool.and_eq_true, decide_eq_true_iff, decide_eq_true_iff,
    largestWord]
  omega

/-- Digits are read as what they denote, if that fits into a word. -/
theorem integer?_eq {digits : List Char} (hNonempty : digits ≠ [])
    (hDigits : IsDigits digits) :
    integer? (String.ofList digits) =
      if placeValue digits ≤ largestWord then some (placeValue digits : Int)
      else none := by
  have hSigned : signed? digits = some (placeValue digits : Int) := by
    obtain ⟨c, rest, rfl⟩ := List.exists_cons_of_ne_nil hNonempty
    have hSign := splitSign_of_isDigit (hDigits c List.mem_cons_self) rest
    rw [signed?, hSign]
    simp only [digits?_of_isDigits hNonempty hDigits, ofDigits_eq]
    rfl
  rw [integer?, String.toList_ofList, hSigned, Option.filter_some]
  exact if_congr (fitsWord_iff _) rfl rfl

-- Zeros in front have no part in the value, however many there are.
example :
    (integer? "0009223372036854775807", integer? "9223372036854775808") =
      (some 9223372036854775807, none) := by
  decide +kernel

end Number

namespace Literal

theorem text_integer (n : Nat) :
    (integer n).text = String.ofList (Nat.toDigits 10 n) :=
  Nat.repr_eq_ofList_toDigits

end Literal

end ImpFront
