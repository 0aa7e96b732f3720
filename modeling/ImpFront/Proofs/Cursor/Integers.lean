import ImpFront.Diagnostic
import ImpFront.Proofs.Cursor.Session
import ImpFront.Proofs.Number.Digits

/-!
# Integers are read exactly

Whatever integer constant stands where an operand is wanted, it is read as the
number that its digits denote, or it is too large for a word; then there is an
error about the constant itself, which is passed over. No other number is ever
read, however many digits there are and whatever zeros they begin with.

The constant is followed on its way: digits by themselves are scanned as one
constant, what it denotes is told by `integer?_eq`, and the rules for operands
take one token in either case. So a number that is written down is read back.

## Main results

* `scan_digits` — digits by themselves are one constant.
* `reading_level_integer` — the rule for operands at an integer constant.
* `integers_exact` — constants, from the source to the tree and back.
-/

namespace ImpFront

open Number (placeValue largestWord integer?_eq)
open Source (scan IsDigits)

/-! ## From the source to the tree -/

namespace Source

/-- Digits that are all of a source are one constant. -/
theorem scan_digits {digits : List Char} (hNonempty : digits ≠ [])
    (hDigits : IsDigits digits) :
    scan (String.ofList digits) =
      { tokens := [⟨.integer, String.ofList digits, .start⟩,
          .atEnd (Position.start.after digits)]
        errors := [] } := by
  have hForm : HasForm .integer (String.ofList digits) := by
    rw [HasForm, String.toList_ofList]
    exact ⟨hNonempty, hDigits⟩
  have hFirst : (Piece.token .integer digits).IsFirst [] := by
    refine ⟨by decide, hForm, ?_, ?_⟩
    · rintro _ ⟨⟩
    · rintro _ _ _ ⟨⟩
  have hCut := cut_append hFirst
  rw [Piece.raw, List.append_nil, cut_nil] at hCut
  rw [scan, String.toList_ofList, hCut, place_cons, place_nil]
  rfl

end Source

namespace Grammar

variable {token : Token} {rest : List Token}

/-- What an integer constant denotes, or that it is too large. -/
theorem constant?_integer (hKind : token.kind = .integer)
    (hNonempty : token.lexeme.toList ≠ [])
    (hDigits : IsDigits token.lexeme.toList) :
    constant? token =
      if placeValue token.lexeme.toList ≤ largestWord then
        some (.ok (.integer (placeValue token.lexeme.toList)))
      else some (.error .integerTooLarge) := by
  have hRead := integer?_eq hNonempty hDigits
  rw [String.ofList_toList] at hRead
  rw [constant?, hKind]
  simp only [hRead]
  by_cases hFits : placeValue token.lexeme.toList ≤ largestWord
  · simp only [if_pos hFits]
  · simp only [if_neg hFits]

/-- Where an operand is wanted, an integer constant is read as a rule of one
token: whether or not it can be read, reading goes on behind it. -/
theorem reading_level_integer (hKind : token.kind = .integer)
    (hNonempty : token.lexeme.toList ≠ [])
    (hDigits : IsDigits token.lexeme.toList) :
    (level 0 (token :: rest)).reading =
      if placeValue token.lexeme.toList ≤ largestWord then
        .accept [] (.literal (.integer (placeValue token.lexeme.toList))) rest
      else .reject [] ⟨.integerTooLarge, token :: rest⟩ rest := by
  have hConstant := constant?_integer hKind hNonempty hDigits
  have hName : token.kind ≠ .identifier := by rw [hKind]; decide
  rw [reading_level_atom (by rw [hKind]; decide) (by rw [hKind]; decide)]
  by_cases hFits : placeValue token.lexeme.toList ≤ largestWord
  · rw [if_pos hFits] at hConstant ⊢
    exact reading_atom_constant hName hConstant
  · rw [if_neg hFits] at hConstant ⊢
    exact reading_atom_unreadable hName hConstant

/-- A token that is an operand by itself, or is passed over as one, is so at
every level if nothing is behind it. -/
theorem reading_level_alone {reading : Reading Expr}
    (h : (level 0 [token]).reading = reading) (hRest : reading.rest = [])
    (k : Nat) : (level k [token]).reading = reading := by
  induction k with
  | zero => exact h
  | succ k ih =>
      rw [reading_level_succ, ih]
      cases reading with
      | accept mended value rest =>
          obtain rfl : rest = [] := hRest
          rw [Reading.bind, chainReading_nil]
          exact congrArg (Reading.accept · value []) (List.append_nil mended)
      | reject mended failure rest => rfl

end Grammar

namespace Reader

variable (reader : Reader) {rest : List Token}

theorem expression_of_accept {value : Expr}
    (h : (Grammar.expression reader.unread).reading = .accept [] value rest) :
    reader.expression = (some value, { reader with unread := rest }) := by
  rw [expression]
  cases hOutcome : Grammar.expression reader.unread with
  | accept value' rest' hLess => rw [hOutcome] at h; cases h; rfl
  | reject failure rest' hLess => rw [hOutcome] at h; cases h

theorem expression_of_reject {failure : Grammar.Failure}
    (h : (Grammar.expression reader.unread).reading =
      .reject [] failure rest) :
    reader.expression = (none, { reader with unread := rest }.report failure) := by
  rw [expression]
  cases hOutcome : Grammar.expression reader.unread with
  | accept value rest' hLess => rw [hOutcome] at h; cases h
  | reject failure' rest' hLess => rw [hOutcome] at h; cases h; rfl

/-- What is read of a source that is nothing but digits. -/
theorem expression_digits {digits : List Char} (hNonempty : digits ≠ [])
    (hDigits : IsDigits digits) :
    let token : Token := ⟨.integer, String.ofList digits, .start⟩
    let finish : Token := .atEnd (Position.start.after digits)
    (ofTokens (scan (String.ofList digits)).tokens).expression =
      if placeValue digits ≤ largestWord then
        (some (.literal (.integer (placeValue digits))), ⟨[], finish, #[]⟩)
      else (none, ⟨[], finish, #[⟨.integerTooLarge, token⟩]⟩) := by
  intro token finish
  have hText : token.lexeme.toList = digits := String.toList_ofList
  have hTokens : ofTokens (scan (String.ofList digits)).tokens =
      ⟨[token], finish, #[]⟩ := by
    rw [Source.scan_digits hNonempty hDigits]
    rfl
  have hLevel : (Grammar.level 0 [token]).reading = _ :=
    Grammar.reading_level_integer rfl
    (by rw [hText]; exact hNonempty) (by rw [hText]; exact hDigits)
  rw [hText] at hLevel
  rw [hTokens]
  by_cases hFits : placeValue digits ≤ largestWord
  · rw [if_pos hFits] at hLevel ⊢
    have hRead : (Grammar.expression [token]).reading = _ :=
      Grammar.reading_level_alone hLevel rfl _
    exact expression_of_accept ⟨[token], finish, #[]⟩ hRead
  · rw [if_neg hFits] at hLevel ⊢
    have hRead : (Grammar.expression [token]).reading = _ :=
      Grammar.reading_level_alone hLevel rfl _
    exact expression_of_reject ⟨[token], finish, #[]⟩ hRead

end Reader

namespace Cursor

/-- **Integers are read exactly.** The integer constants of a source are runs
of digits, and any digits by themselves are one such constant. Where an
operand is wanted and an integer constant stands at the cursor, whatever is
behind it and whatever has been reported before, then

* if its value fits into a word, that value is read and nothing is reported;
* if not, exactly one error is reported, which is about the constant itself;

and in both cases the cursor goes on just behind the constant. The other way
round, a number that fits into a word is written as digits which are scanned
as one constant and read as that number. -/
theorem integers_exact :
    (∀ source : String, ∀ token ∈ (scan source).tokens,
      token.kind = .integer →
        token.lexeme.toList ≠ [] ∧ IsDigits token.lexeme.toList) ∧
    (∀ digits : List Char, digits ≠ [] → IsDigits digits →
      scan (String.ofList digits) =
        ⟨[⟨.integer, String.ofList digits, .start⟩,
          .atEnd (Position.start.after digits)], []⟩) ∧
    (∀ (token : Token) (digits : List Char), token.kind = .integer →
      token.lexeme = String.ofList digits → digits ≠ [] → IsDigits digits →
      ∀ (stream : Stream) (rest : List Token) (errors : List SyntaxError)
        (fuel : Nat),
        (placeValue digits ≤ 9223372036854775807 →
          (Grammar.level 0 (token :: rest)).reading =
            .accept [] (.literal (.integer (placeValue digits))) rest ∧
          Ends (At stream (token :: rest) errors) (primary (fuel + 1))
            (.ok (.literal (.integer (placeValue digits))))
            (At stream rest errors)) ∧
        (9223372036854775807 < placeValue digits →
          (Grammar.level 0 (token :: rest)).reading =
            .reject [] ⟨.integerTooLarge, token :: rest⟩ rest ∧
          Ends (At stream (token :: rest) errors) (primary (fuel + 1))
            (.error ())
            (At stream rest (errors ++ [⟨.integerTooLarge, token⟩])) ∧
          (SyntaxError.mk .integerTooLarge token).diagnostic =
            .syntactic token.position "Constante entera fuera de rango."
              token.lexeme)) ∧
    ∀ n : Nat, n ≤ 9223372036854775807 →
      ∃ finish : Token, finish.kind = .endOfInput ∧
        scan (Literal.integer n).text =
          ⟨[⟨.integer, (Literal.integer n).text, .start⟩, finish], []⟩ ∧
        (Reader.ofTokens (scan (Literal.integer n).text).tokens).expression =
          (some (.literal (.integer n)), ⟨[], finish, #[]⟩) := by
  refine ⟨?forms, fun digits => Source.scan_digits, ?operand, ?written⟩
  case forms =>
    intro source token hMem hKind
    have hForm := Source.hasForm_of_mem hMem (by rw [hKind]; decide)
    rw [hKind] at hForm
    exact hForm
  case operand =>
    intro token digits hKind hLexeme hNonempty hDigits stream rest errors fuel
    have hText : token.lexeme.toList = digits := by
      rw [hLexeme, String.toList_ofList]
    have hLevel : (Grammar.level 0 (token :: rest)).reading = _ :=
      Grammar.reading_level_integer hKind
      (by rw [hText]; exact hNonempty) (by rw [hText]; exact hDigits)
    rw [hText] at hLevel
    have hReads : Reads stream (primary (fuel + 1)) (token :: rest)
        (Grammar.level 0 (token :: rest)).reading := by
      rw [Grammar.reading_level_atom (by rw [hKind]; decide)
        (by rw [hKind]; decide)]
      exact primary_atom (by rw [hKind]; decide)
    constructor
    · intro hFits
      have hBound : placeValue digits ≤ largestWord := hFits
      rw [if_pos hBound] at hLevel
      rw [hLevel] at hReads
      have hEnds := hReads errors
      rw [Grammar.Reading.errors, Grammar.Reading.failures, List.map_nil,
        List.append_nil] at hEnds
      exact ⟨hLevel, hEnds⟩
    · intro hLarge
      have hBound : ¬placeValue digits ≤ largestWord := Nat.not_le.2 hLarge
      rw [if_neg hBound] at hLevel
      rw [hLevel] at hReads
      exact ⟨hLevel, hReads errors, rfl⟩
  case written =>
    intro n hFits
    have hNonempty : Nat.toDigits 10 n ≠ [] := Nat.toDigits_ne_nil
    have hDigits := Number.isDigits_toDigits n
    have hBound : n ≤ largestWord := hFits
    have hRead := Reader.expression_digits hNonempty hDigits
    simp only [Number.placeValue_toDigits, if_pos hBound] at hRead
    rw [Literal.text_integer]
    exact ⟨_, rfl, Source.scan_digits hNonempty hDigits, hRead⟩

end Cursor

end ImpFront
