import ImpFront.Proofs.Source.Determined
import ImpFront.Proofs.Source.Offsets

/-!
# Scanning begins anew behind a newline

When nothing is left open at the end of a text, a newline there ends
whatever the text ends with, and what follows it is scanned as if it stood
alone, further down. So a source may be scanned in parts that are joined by
newlines, and the tokens of the parts are the tokens of the source.

There are two reasons. No piece that is closed goes on with a newline or
makes an operator with one, so the pieces of the text stay what they were
(`cut_append_newline`). And positions are only ever counted on, column one
being where each line begins, so a scan that starts some lines further down
finds the same things the same number of lines further down
(`place_lower`).

## Main results

* `cut_append_newline` — the pieces of two texts with a newline between them.
* `place_lower` — a scan that starts further down.
* `place_append` — a scan that is taken up again.
* `scan_append_newline` — the tokens and the errors of the joined source.
-/

namespace ImpFront

/-! ## Further down -/

/-- The place in the same column, some lines further down. -/
def Position.lower (count : Nat) (pos : Position) : Position :=
  { pos with line := pos.line + count }

/-- The same token, some lines further down. -/
def Token.lower (count : Nat) (token : Token) : Token :=
  { token with position := token.position.lower count }

/-- The same error, some lines further down. -/
def LexicalError.lower (count : Nat) (error : LexicalError) : LexicalError :=
  { error with position := error.position.lower count }

namespace Position

theorem next_lower (count : Nat) (pos : Position) (c : Char) :
    (pos.lower count).next c = (pos.next c).lower count := by
  by_cases hNewline : c = '\n' <;>
    simp [next, lower, hNewline, Nat.add_right_comm]

theorem after_lower (count : Nat) (pos : Position) (text : List Char) :
    (pos.lower count).after text = (pos.after text).lower count := by
  induction text generalizing pos with
  | nil => rfl
  | cons c text ih => rw [after_cons, after_cons, next_lower, ih]

/-- Behind a newline, counting begins anew as many lines further down as
there have been newlines. -/
theorem after_newline (text : List Char) :
    (start.after text).next '\n' = start.lower (1 + text.count '\n') := by
  rw [after_start]
  simp [next, lower, start, Nat.add_comm]

end Position

namespace Source

section Lower

variable (count : Nat) (pos : Position)

theorem token?_lower (piece : Piece) :
    piece.token? (pos.lower count) =
      (piece.token? pos).map (Token.lower count) := by
  cases piece with
  | quoted text =>
      simp [Piece.token?, Piece.endOfQuoted, Token.lower, Position.next_lower,
        Position.after_lower]
  | _ => rfl

theorem error?_lower (piece : Piece) :
    piece.error? (pos.lower count) =
      (piece.error? pos).map (LexicalError.lower count) := by
  cases piece with
  | openString text =>
      simp [Piece.error?, Piece.endOfQuoted, LexicalError.lower,
        Position.next_lower, Position.after_lower]
  | _ => rfl

/-- Pieces of a text that starts further down are further down. -/
theorem place_lower (pieces : List Piece) :
    place (pos.lower count) pieces =
      (place pos pieces).map (Prod.map (Position.lower count) id) := by
  induction pieces generalizing pos with
  | nil => rfl
  | cons piece pieces ih =>
      rw [place_cons, place_cons, Position.after_lower, ih, List.map_cons]
      rfl

/-- A scan that starts further down makes the same tokens further down. -/
theorem tokensFrom_lower (pieces : List Piece) :
    tokensFrom (pos.lower count) pieces =
      (tokensFrom pos pieces).map (Token.lower count) := by
  rw [tokensFrom, tokensFrom, place_lower, List.filterMap_map,
    List.map_filterMap]
  refine congrArg (List.filterMap · (place pos pieces)) (funext ?_)
  rintro ⟨pos, piece⟩
  exact token?_lower count pos piece

/-- And it finds the same errors further down. -/
theorem errorsFrom_lower (pieces : List Piece) :
    errorsFrom (pos.lower count) pieces =
      (errorsFrom pos pieces).map (LexicalError.lower count) := by
  rw [errorsFrom, errorsFrom, place_lower, List.filterMap_map,
    List.map_filterMap]
  refine congrArg (List.filterMap · (place pos pieces)) (funext ?_)
  rintro ⟨pos, piece⟩
  exact error?_lower count pos piece

end Lower

/-! ## Pieces in front of a newline -/

/-- What is true of the character behind a piece, and of a newline, stays
true when a newline ends the text. -/
theorem forall_head?_append_newline {P : Char → Prop} {text : List Char}
    (hNewline : P '\n') (h : ∀ c ∈ text.head?, P c) (more : List Char) :
    ∀ c ∈ (text ++ '\n' :: more).head?, P c := by
  cases text with
  | nil =>
      rintro c ⟨⟩
      exact hNewline
  | cons d text => exact h

/-- A piece that is closed stays the first one when a newline ends the text
behind it, whatever follows then. -/
theorem isFirst_append_newline {piece : Piece} {rest : List Char}
    {pos : Position} (h : piece.IsFirst rest)
    (hClosed : piece.error? pos = none) (more : List Char) :
    piece.IsFirst (rest ++ '\n' :: more) := by
  have hBlank : Text.isWhiteSpace '\n' = true := by decide
  cases piece with
  | blank | quoted => exact h
  | openString | openComment => cases hClosed
  | token kind text =>
      obtain ⟨hString, hForm, hNext, hPair⟩ := h
      refine ⟨hString, hForm, ?_, ?_⟩
      · exact forall_head?_append_newline (goesOn_newline kind) hNext more
      · intro c hSingle
        exact forall_head?_append_newline
          (ofPair?_eq_none_of_isWhiteSpace c hBlank) (hPair c hSingle) more

/-- A text in which nothing is left open is cut as before when a newline and
more follow, and what follows is cut by itself. -/
theorem cut_append_newline {pos : Position} (text more : List Char)
    (hClosed : errorsFrom pos (cut text) = []) :
    cut (text ++ '\n' :: more) = cut text ++ .blank '\n' :: cut more := by
  match text with
  | [] =>
      rw [cut_nil]
      exact cut_blank (by decide) more
  | c :: text =>
      have hFirst := Piece.isFirst_first c text
      have hText := Piece.raw_first_append c text
      rw [cut_cons, errorsFrom_cons, List.append_eq_nil_iff,
        Option.toList_eq_nil_iff] at hClosed
      obtain ⟨hPiece, hRest⟩ := hClosed
      have ih := cut_append_newline (Piece.first c text).2 more hRest
      rw [← hText, List.append_assoc,
        cut_append (isFirst_append_newline hFirst hPiece more), ih,
        cut_append hFirst]
      rfl
termination_by text.length
decreasing_by exact Piece.length_first_lt c text

/-! ## Two parts of a source -/

theorem place_append (pos : Position) (first second : List Piece) :
    place pos (first ++ second) =
      place pos first ++
        place (pos.after (first.flatMap Piece.raw)) second := by
  induction first generalizing pos with
  | nil => rfl
  | cons piece first ih =>
      rw [List.cons_append, place_cons, place_cons, ih, List.flatMap_cons,
        Position.after_append, List.cons_append]

theorem tokensFrom_append (pos : Position) (first second : List Piece) :
    tokensFrom pos (first ++ second) =
      tokensFrom pos first ++
        tokensFrom (pos.after (first.flatMap Piece.raw)) second := by
  rw [tokensFrom, place_append, List.filterMap_append]
  rfl

theorem errorsFrom_append (pos : Position) (first second : List Piece) :
    errorsFrom pos (first ++ second) =
      errorsFrom pos first ++
        errorsFrom (pos.after (first.flatMap Piece.raw)) second := by
  rw [errorsFrom, place_append, List.filterMap_append]
  rfl

/-- The tokens of a source without the end of the input. -/
theorem filter_tokens_scan (source : String) :
    (scan source).tokens.filter (·.kind ≠ .endOfInput) =
      tokensFrom .start (cut source.toList) := by
  have hKinds := (splits_cut .start source.toList).kind_ne
  rw [tokens_scan, List.filter_append,
    List.filter_eq_self.2 (by simpa using hKinds)]
  exact List.append_nil _

/-- **Scanning begins anew behind a newline.** If nothing is wrong with the
first part of a source then a newline behind it sets it apart from the
second one: the tokens are those of the first part, without the end of the
input, and then those of the second part, each as many lines further down
as there are newlines before it and in the same column; and the errors are
those of the second part, further down in the same way. -/
theorem scan_append_newline (first second : String)
    (hFirst : (scan first).errors = []) :
    let passed := 1 + first.toList.count '\n'
    (scan (first ++ "\n" ++ second)).tokens =
        (scan first).tokens.filter (·.kind ≠ .endOfInput) ++
          (scan second).tokens.map (Token.lower passed) ∧
      (scan (first ++ "\n" ++ second)).errors =
        (scan second).errors.map (LexicalError.lower passed) := by
  intro passed
  have hText : (first ++ "\n" ++ second).toList =
      first.toList ++ '\n' :: second.toList := by
    simp
  have hCut := cut_append_newline first.toList second.toList hFirst
  have hBehind : (Position.start.after first.toList).next '\n' =
      Position.start.lower passed := Position.after_newline first.toList
  have hEnd : Position.start.after (first.toList ++ '\n' :: second.toList) =
      (Position.start.after second.toList).lower passed := by
    rw [Position.after_append, Position.after_cons, hBehind,
      Position.after_lower]
  have hBlank : (Position.start.after first.toList).after
      (Piece.blank '\n').raw = Position.start.lower passed := hBehind
  constructor
  · rw [tokens_scan, hText, hCut, tokensFrom_append, flatMap_raw_cut,
      tokensFrom_cons, hBlank, tokensFrom_lower, hEnd, filter_tokens_scan,
      tokens_scan, List.map_append, List.append_assoc]
    rfl
  · rw [errors_scan, hText, hCut, errorsFrom_append, flatMap_raw_cut,
      errorsFrom_cons, hBlank, errorsFrom_lower, ← errors_scan, hFirst]
    rfl

/-- A real that ends in its point, and digits on the next line; the second
part ends in a string that is not closed. -/
theorem scan_append_newline_real :
    (scan "x\n<5.").errors = [] ∧
      (scan ("x\n<5." ++ "\n" ++ "7=\"y")).tokens =
        [⟨.identifier, "x", ⟨1, 1⟩⟩, ⟨.less, "<", ⟨2, 1⟩⟩,
          ⟨.real, "5.", ⟨2, 2⟩⟩, ⟨.integer, "7", ⟨3, 1⟩⟩,
          ⟨.assign, "=", ⟨3, 2⟩⟩, ⟨.endOfInput, "", ⟨3, 5⟩⟩] ∧
      (scan ("x\n<5." ++ "\n" ++ "7=\"y")).errors =
        [⟨.openString, ⟨3, 5⟩⟩] := by
  have hFirst : (scan "x\n<5.").errors = [] := by decide +kernel
  obtain ⟨hTokens, hErrors⟩ := scan_append_newline "x\n<5." "7=\"y" hFirst
  refine ⟨hFirst, hTokens.trans ?_, hErrors.trans ?_⟩
  · decide +kernel
  · decide +kernel

end Source

end ImpFront
