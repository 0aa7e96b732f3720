import ImpFront.Literal
import ImpFront.Proofs.Number.Digits

/-!
# What reals are written with

A source has no signs in front of its reals, so what is read is never
negative, though it may be infinite. A number that is finite is written in one
of two layouts, and in both the first character is a digit and there is a
point or an exponent somewhere. By this a real is told from a whole number and
from a word, without looking at how its digits are found.

## Main results

* `real?_of_isReal` — what can be read of a source.
* `isRealText_write` — what a finite number without a sign is written with.
-/

namespace ImpFront.Number

open Source (IsDigits IsReal)

/-! ## Reading -/

/-- Finite or infinite, and without a sign. -/
def Binary64.IsUnsigned : Binary64 → Prop
  | notNumber => False
  | infinite negative => negative = false
  | finite negative _ => negative = false

theorem Binary64.isUnsigned_nearest (q : Fraction) :
    (nearest false q).IsUnsigned := by
  unfold nearest
  split
  · exact rfl
  · exact rfl

theorem Decimal.isUnsigned_toBinary64 (d : Decimal) :
    (d.toBinary64 false).IsUnsigned := by
  rw [toBinary64]
  split
  · exact rfl
  · split
    · exact rfl
    · split
      · exact rfl
      · exact Binary64.isUnsigned_nearest _

/-- A real of a source is read as a number without a sign. -/
theorem real?_of_isReal {lexeme : String} {x : Binary64}
    (h : IsReal lexeme.toList) (hRead : real? lexeme = some x) :
    x.IsUnsigned := by
  obtain ⟨whole, fraction, hText, hNonempty, hWhole, hFraction⟩ := h
  rw [real?_digits_point_digits hText hNonempty hWhole hFraction] at hRead
  obtain rfl := Option.some.inj hRead
  exact Decimal.isUnsigned_toBinary64 _

/-! ## Writing -/

/-- The texts of reals: a digit comes first, and there is a point or an
exponent. -/
structure IsRealText (text : List Char) : Prop where
  begins : ∃ c rest, text = c :: rest ∧ c.isDigit = true
  consists : ∀ c ∈ text, c.isDigit = true ∨ c = '.' ∨ c = 'e' ∨ c = '-'
  shows : '.' ∈ text ∨ 'e' ∈ text

/-- Reals as a source has them are texts of reals. -/
theorem IsRealText.of_isReal {text : List Char} (h : IsReal text) :
    IsRealText text := by
  obtain ⟨whole, fraction, rfl, hNonempty, hWhole, hFraction⟩ := h
  obtain ⟨c, digits, rfl⟩ := List.exists_cons_of_ne_nil hNonempty
  refine ⟨⟨c, _, rfl, hWhole c List.mem_cons_self⟩, ?_, ?_⟩
  · intro d hMem
    rcases List.mem_append.1 hMem with hIn | hIn
    · exact .inl (hWhole d hIn)
    · rcases List.mem_cons.1 hIn with rfl | hIn
      · exact .inr (.inl rfl)
      · exact .inl (hFraction d hIn)
  · exact .inl (List.mem_append_right _ List.mem_cons_self)

/-- A power of ten behind digits and a point. -/
theorem IsRealText.of_exponent {c : Char} {mantissa exponent : List Char}
    (hFirst : c.isDigit = true)
    (hMantissa : ∀ d ∈ mantissa, d.isDigit = true ∨ d = '.')
    (hExponent : ∀ d ∈ exponent, d.isDigit = true ∨ d = '-') :
    IsRealText (c :: mantissa ++ 'e' :: exponent) := by
  refine ⟨⟨c, _, rfl, hFirst⟩, ?_, ?_⟩
  · intro d hMem
    simp only [List.cons_append, List.mem_cons, List.mem_append] at hMem
    rcases hMem with rfl | hIn | rfl | hIn
    · exact .inl hFirst
    · rcases hMantissa d hIn with hDigit | rfl
      · exact .inl hDigit
      · exact .inr (.inl rfl)
    · exact .inr (.inr (.inl rfl))
    · rcases hExponent d hIn with hDigit | rfl
      · exact .inl hDigit
      · exact .inr (.inr (.inr rfl))
  · exact .inr (List.mem_append_right _ List.mem_cons_self)

namespace Decimal

theorem isDigits_digitChars (n : Nat) : IsDigits (digitChars n) :=
  isDigits_toDigits n

theorem digitChars_ne_nil (n : Nat) : digitChars n ≠ [] :=
  Nat.toDigits_ne_nil

theorem isDigits_replicate (n : Nat) : IsDigits (List.replicate n '0') := by
  intro c hMem
  rw [List.eq_of_mem_replicate hMem]
  rfl

/-- In full there are digits on both sides of a point. -/
theorem isReal_positional (d : Decimal) : IsReal d.positional := by
  have hDigits := isDigits_digitChars d.digits
  have hNonempty := digitChars_ne_nil d.digits
  simp only [positional]
  split
  · refine ⟨digitChars d.digits ++ List.replicate d.exponent.toNat '0', ['0'],
      rfl, List.append_ne_nil_of_left_ne_nil hNonempty _, ?_, ?_⟩
    · exact List.forall_mem_append.2 ⟨hDigits, isDigits_replicate _⟩
    · exact isDigits_replicate 1
  · split
    · next hPlaces =>
      refine ⟨_, _, rfl, ?_, ?_, ?_⟩
      · intro hNil
        rcases List.take_eq_nil_iff.1 hNil with hZero | hNone
        · omega
        · exact hNonempty hNone
      · exact fun c hMem => hDigits c (List.mem_of_mem_take hMem)
      · exact fun c hMem => hDigits c (List.mem_of_mem_drop hMem)
    · refine ⟨['0'], _, rfl, List.cons_ne_nil _ _, isDigits_replicate 1, ?_⟩
      exact List.forall_mem_append.2 ⟨isDigits_replicate _, hDigits⟩

/-- With an exponent there is a digit in front of it. -/
theorem isRealText_scientific (d : Decimal) : IsRealText d.scientific := by
  have hDigits := isDigits_digitChars d.digits
  have hPower (n : Nat) : ∀ c ∈ digitChars n, c.isDigit = true ∨ c = '-' :=
    fun c hMem => .inl (isDigits_digitChars n c hMem)
  have hExponent (power : Int) :
      ∀ c ∈ (if power < 0 then '-' :: digitChars (-power).toNat
        else digitChars power.toNat), c.isDigit = true ∨ c = '-' := by
    split
    · exact List.forall_mem_cons.2 ⟨.inr rfl, hPower _⟩
    · exact hPower _
  rw [scientific]
  cases hCase : digitChars d.digits with
  | nil => exact absurd hCase (digitChars_ne_nil d.digits)
  | cons first others =>
      rw [hCase] at hDigits
      obtain ⟨hFirst, hOthers⟩ := List.forall_mem_cons.1 hDigits
      cases others with
      | nil => exact .of_exponent hFirst nofun (hExponent _)
      | cons second others =>
          refine .of_exponent hFirst ?_ (hExponent _)
          exact List.forall_mem_cons.2
            ⟨.inr rfl, fun c hMem => .inl (hOthers c hMem)⟩

theorem isRealText_write (layout : DecimalLayout) (d : Decimal) :
    IsRealText (d.write layout) := by
  simp only [write]
  split
  · exact .of_isReal d.isReal_positional
  · exact d.isRealText_scientific

end Decimal

/-- A finite number without a sign is written as the text of a real. -/
theorem isRealText_write (layout : DecimalLayout) (m : Magnitude) :
    IsRealText ((Binary64.finite false m).write layout).toList := by
  rw [Binary64.write, String.toList_ofList, if_neg Bool.false_ne_true]
  split
  · exact .of_isReal ⟨['0'], ['0'], rfl, List.cons_ne_nil _ _,
      Decimal.isDigits_replicate 1, Decimal.isDigits_replicate 1⟩
  · exact m.shortest.isRealText_write layout

end ImpFront.Number
