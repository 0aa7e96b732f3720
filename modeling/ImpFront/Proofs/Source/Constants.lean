import ImpFront.Number.Decimal
import ImpFront.Proofs.Source.Determined

/-!
# Constants of a source can be read

A token never interprets its text, so whether a constant can be read is
decided only where it is used. For reals this is never in doubt if the token
comes from a source: its text is made of digits, a point and digits again,
and every such text is a decimal number without a sign and an exponent. How
many digits there are, or how large the number is, does not matter: one that
is beyond the format is read as infinite.

## Main results

* `read?_digits_point_digits` — the decimal number that is written there.
* `real?_digits_point_digits` — it is what is read.
* `isSome_real?_of_mem` — so can the reals of a source.
-/

namespace ImpFront

namespace Number

open Source (IsDigits IsReal NotNext notNext_cons takeWhile_append_of_notNext
  dropWhile_append_of_notNext)

/-- A digit is no sign. -/
theorem splitSign_of_isDigit {c : Char} (h : c.isDigit = true)
    (text : List Char) : splitSign (c :: text) = (false, c :: text) := by
  unfold splitSign
  split
  · next hText => cases hText; cases h
  · next hText => cases hText; cases h
  · rfl

theorem toLower_of_isDigit {c : Char} (h : c.isDigit = true) :
    c.toLower = c := by
  rw [Char.isDigit, Bool.and_eq_true, decide_eq_true_eq,
    decide_eq_true_eq] at h
  have hNotUpper : ¬(c.val ≥ 'A'.val ∧ c.val ≤ 'Z'.val) := by
    intro hUpper
    have hLetter : 'A'.val ≤ '9'.val := UInt32.le_trans hUpper.1 h.2
    revert hLetter
    decide
  exact dif_neg hNotUpper

theorem digits?_of_isDigits {text : List Char} (hNonempty : text ≠ [])
    (hDigits : IsDigits text) : digits? text = some (ofDigits text) :=
  if_pos ⟨hNonempty, List.all_eq_true.2 hDigits⟩

/-- The point counts the digits behind it, and there is no exponent. -/
theorem read?_digits_point_digits {whole fraction : List Char}
    (hNonempty : whole ≠ []) (hWhole : IsDigits whole)
    (hFraction : IsDigits fraction) :
    Decimal.read? (whole ++ '.' :: fraction) =
      some ⟨ofDigits (whole ++ fraction), 0 - fraction.length⟩ := by
  have hPoint : NotNext Char.isDigit ('.' :: fraction) :=
    notNext_cons rfl fraction
  have hPlaces : fraction.takeWhile Char.isDigit = fraction :=
    List.takeWhile_eq_self_iff.2 hFraction
  have hRest : fraction.dropWhile Char.isDigit = [] :=
    List.dropWhile_eq_nil_iff.2 hFraction
  have hMantissa := digits?_of_isDigits
    (List.append_ne_nil_of_left_ne_nil hNonempty fraction)
    (List.forall_mem_append.2 ⟨hWhole, hFraction⟩)
  simp only [Decimal.read?, takeWhile_append_of_notNext hWhole hPoint,
    dropWhile_append_of_notNext hWhole hPoint, hPlaces, hRest, hMantissa]
  rfl

/-- What is read is that decimal number: no digits are the word for anything
else. -/
theorem real?_digits_point_digits {lexeme : String}
    {whole fraction : List Char}
    (hText : lexeme.toList = whole ++ '.' :: fraction) (hNonempty : whole ≠ [])
    (hWhole : IsDigits whole) (hFraction : IsDigits fraction) :
    real? lexeme =
      some (Decimal.toBinary64 false
        ⟨ofDigits (whole ++ fraction), 0 - fraction.length⟩) := by
  have hRead := read?_digits_point_digits hNonempty hWhole hFraction
  obtain ⟨c, digits, rfl⟩ := List.exists_cons_of_ne_nil hNonempty
  have hDigit : c.isDigit = true := hWhole c List.mem_cons_self
  have hSign := splitSign_of_isDigit hDigit (digits ++ '.' :: fraction)
  have hWord (d : Char) (rest : List Char) (hLetter : d.isDigit = false) :
      String.ofList ((c :: digits ++ '.' :: fraction).map Char.toLower) ≠
        String.ofList (d :: rest) := by
    intro hSame
    have hFirst := (List.cons.inj (String.ofList_injective hSame)).1
    rw [toLower_of_isDigit hDigit] at hFirst
    rw [← hFirst, hDigit] at hLetter
    cases hLetter
  rw [real?, hText, List.cons_append, hSign, ← List.cons_append]
  simp only [hRead]
  rw [if_neg (not_or.2 ⟨hWord 'i' ['n', 'f'] rfl,
      hWord 'i' ['n', 'f', 'i', 'n', 'i', 't', 'y'] rfl⟩),
    if_neg (hWord 'n' ['a', 'n'] rfl)]
  rfl

theorem isSome_real?_of_isReal {lexeme : String} (h : IsReal lexeme.toList) :
    (real? lexeme).isSome = true := by
  obtain ⟨whole, fraction, hText, hNonempty, hWhole, hFraction⟩ := h
  rw [real?_digits_point_digits hText hNonempty hWhole hFraction]
  rfl

end Number

namespace Source

variable {source : String} {token : Token}

/-- A token of a source has the form of its kind. -/
theorem hasForm_of_mem (h : token ∈ (scan source).tokens)
    (hEnd : token.kind ≠ .endOfInput) :
    HasForm token.kind token.lexeme := by
  obtain ⟨sites, front, tail, hTokens, -, hCut, -⟩ := exists_sites source
  rw [hTokens, List.mem_append, List.mem_singleton] at h
  obtain hMem | rfl := h
  · obtain ⟨site, hSite, rfl⟩ := List.mem_map.1 hMem
    exact (hCut site hSite).hasForm.1
  · exact absurd rfl hEnd

theorem isSome_real?_of_mem (h : token ∈ (scan source).tokens)
    (hKind : token.kind = .real) : (Number.real? token.lexeme).isSome = true := by
  have hForm := hasForm_of_mem h (by rw [hKind]; decide)
  rw [hKind] at hForm
  exact Number.isSome_real?_of_isReal hForm

end Source

end ImpFront
