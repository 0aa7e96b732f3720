import ImpFront.Source.Scan

/-!
# What the pieces of a text are

Each scanning rule cuts off a piece of its own sort. A piece that makes a
token and is not written between quotes is neither a string constant nor
the end of the input; and a string or a comment that is not closed has no
closing sign in it and nothing behind it.

The tokens and the errors of a text come from its pieces, one after
another, each from the position that the pieces before it lead to.

## Main results

* `dispatched_first` — which rule cuts the first piece of a text, and what
  the rules before that one have ruled out.
* `wellCut_first` — what the first piece of a text can be.
* `tokensFrom_cons`, `errorsFrom_cons` — tokens and errors, piece by piece.
-/

namespace ImpFront.Source

open Token (Kind)

/-! ## The first piece -/

namespace Piece

/-! ### The rules and their order -/

/-- How a text is cut that begins with `c`: each rule with what it takes to
come to it. The last one comes after all others. -/
inductive Dispatched (c : Char) (text : List Char) :
    Piece × List Char → Prop
  | blank (h : Text.isWhiteSpace c = true) :
      Dispatched c text (.blank c, text)
  | word (h : beginsWord c = true) : Dispatched c text (word c text)
  | number (h : c.isDigit = true) : Dispatched c text (number c text)
  | string (h : c = '"') : Dispatched c text (string text)
  | lineComment {rest : List Char} (h : c = '/') (hText : text = '/' :: rest) :
      Dispatched c text (lineComment rest)
  | blockComment {rest : List Char} (h : c = '/')
      (hText : text = '*' :: rest) : Dispatched c text (blockComment rest)
  | symbol (hBlank : Text.isWhiteSpace c = false)
      (hWord : beginsWord c = false) (hNumber : c.isDigit = false)
      (hString : c ≠ '"')
      (hComment : c = '/' → ∀ d ∈ text.head?, d ≠ '/' ∧ d ≠ '*') :
      Dispatched c text (symbol c text)

theorem dispatched_first (c : Char) (text : List Char) :
    Dispatched c text (first c text) := by
  unfold first
  by_cases hBlank : Text.isWhiteSpace c = true
  · rw [if_pos hBlank]
    exact .blank hBlank
  rw [if_neg hBlank]
  by_cases hWord : beginsWord c = true
  · rw [if_pos hWord]
    exact .word hWord
  rw [if_neg hWord]
  by_cases hNumber : c.isDigit = true
  · rw [if_pos hNumber]
    exact .number hNumber
  rw [if_neg hNumber]
  by_cases hString : c = '"'
  · rw [if_pos hString]
    exact .string hString
  rw [if_neg hString]
  rw [Bool.not_eq_true] at hBlank hWord hNumber
  split
  · exact .lineComment rfl rfl
  · exact .blockComment rfl rfl
  · next hLine hBlock =>
    refine .symbol hBlank hWord hNumber hString ?_
    intro hSlash d hHead
    obtain ⟨rest, hText⟩ := List.head?_eq_some_iff.1 hHead
    constructor
    · rintro rfl
      exact hLine rest hSlash hText
    · rintro rfl
      exact hBlock rest hSlash hText

/-! ### What the rules cut off -/

/-- What a piece must be, with `rest` behind it: a token is neither a
string nor the end of the input, and what is not closed goes to the end. -/
def WellCut (rest : List Char) : Piece → Prop
  | blank c => Text.isWhiteSpace c = true
  | token kind _ => kind ≠ .string ∧ kind ≠ .endOfInput
  | quoted _ => True
  | openString body => '"' ∉ body ∧ rest = []
  | openComment body => ¬['*', '/'] <:+: body ∧ rest = []

theorem wellCut_word (c : Char) (text : List Char) :
    (word c text).1.WellCut (word c text).2 := by
  show wordKind _ ≠ .string ∧ wordKind _ ≠ .endOfInput
  generalize c :: text.takeWhile continuesWord = run
  rw [wordKind]
  unfold Kind.keyword?
  split <;> decide

theorem wellCut_number (c : Char) (text : List Char) :
    (number c text).1.WellCut (number c text).2 := by
  rw [number]
  split <;> exact ⟨nofun, nofun⟩

theorem wellCut_string (text : List Char) :
    (string text).1.WellCut (string text).2 := by
  rw [string]
  split
  · next hNone =>
    have hSplit := List.takeWhile_append_dropWhile (p := (· != '"')) (l := text)
    have hAll := List.all_takeWhile (p := (· != '"')) (l := text)
    rw [hNone, List.append_nil] at hSplit
    rw [hSplit] at hAll
    refine ⟨?_, rfl⟩
    intro hMem
    have hQuote := List.all_eq_true.1 hAll '"' hMem
    simp at hQuote
  · exact trivial

theorem splitClosed?_eq_none {seen text : List Char}
    (h : splitClosed? seen text = none) : ¬['*', '/'] <:+: text := by
  fun_induction splitClosed? seen text with
  | case1 seen rest => cases h
  | case2 seen c text hNotClosed ih =>
      rw [List.infix_cons_iff]
      rintro (hPrefix | hInfix)
      · obtain ⟨rest, hRest⟩ := hPrefix
        injection hRest with hStar hSlash
        exact hNotClosed rest hStar.symm hSlash.symm
      · exact ih h hInfix
  | case3 => simp

theorem wellCut_blockComment (text : List Char) :
    (blockComment text).1.WellCut (blockComment text).2 := by
  rw [blockComment]
  split
  · exact ⟨nofun, nofun⟩
  · next h => exact ⟨splitClosed?_eq_none h, rfl⟩

theorem wellCut_single (c : Char) (rest : List Char) :
    (single c).WellCut rest := by
  show (Kind.ofChar? c).getD .unknown ≠ .string ∧
    (Kind.ofChar? c).getD .unknown ≠ .endOfInput
  unfold Kind.ofChar?
  split <;> decide

theorem ofPair?_ne {c d : Char} {kind : Kind} (h : Kind.ofPair? c d = some kind) :
    kind ≠ .string ∧ kind ≠ .endOfInput := by
  unfold Kind.ofPair? at h
  split at h <;> cases h <;> decide

theorem wellCut_symbol (c : Char) (text : List Char) :
    (symbol c text).1.WellCut (symbol c text).2 := by
  unfold symbol
  split
  · exact wellCut_single c []
  · split
    · next h => exact ofPair?_ne h
    · exact wellCut_single c _

/-- What the first piece of a text can be. -/
theorem wellCut_first (c : Char) (text : List Char) :
    (first c text).1.WellCut (first c text).2 := by
  have hRule := dispatched_first c text
  generalize first c text = cutOff at hRule ⊢
  cases hRule with
  | blank h => exact h
  | word => exact wellCut_word c text
  | number => exact wellCut_number c text
  | string => exact wellCut_string text
  | lineComment => exact ⟨nofun, nofun⟩
  | blockComment => exact wellCut_blockComment _
  | symbol => exact wellCut_symbol c text

end Piece

/-! ## Tokens and errors, piece by piece -/

/-- The tokens that pieces make of which the first begins at `pos`. -/
def tokensFrom (pos : Position) (pieces : List Piece) : List Token :=
  (place pos pieces).filterMap fun (pos, piece) => piece.token? pos

/-- The errors that pieces are of which the first begins at `pos`. -/
def errorsFrom (pos : Position) (pieces : List Piece) : List LexicalError :=
  (place pos pieces).filterMap fun (pos, piece) => piece.error? pos

@[simp] theorem tokensFrom_nil (pos : Position) : tokensFrom pos [] = [] := rfl

@[simp] theorem errorsFrom_nil (pos : Position) : errorsFrom pos [] = [] := rfl

theorem tokensFrom_cons (pos : Position) (piece : Piece) (pieces : List Piece) :
    tokensFrom pos (piece :: pieces) =
      (piece.token? pos).toList ++ tokensFrom (pos.after piece.raw) pieces := by
  rw [tokensFrom, place_cons, List.filterMap_cons]
  cases piece <;> rfl

theorem errorsFrom_cons (pos : Position) (piece : Piece) (pieces : List Piece) :
    errorsFrom pos (piece :: pieces) =
      (piece.error? pos).toList ++ errorsFrom (pos.after piece.raw) pieces := by
  rw [errorsFrom, place_cons, List.filterMap_cons]
  cases piece <;> rfl

theorem tokens_scan (source : String) :
    (scan source).tokens = tokensFrom .start (cut source.toList) ++
      [.atEnd (Position.start.after source.toList)] := rfl

theorem errors_scan (source : String) :
    (scan source).errors = errorsFrom .start (cut source.toList) := rfl

end ImpFront.Source
