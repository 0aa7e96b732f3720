import ImpFront.Typing.Analysis
import ImpFront.Proofs.Grammar.Acceptance
import ImpFront.Proofs.Source.Determined
import ImpFront.Proofs.Source.Offsets

/-!
# Comments are white space

When every character of every comment is made a space, newlines apart, the
source has the tokens that it had, without the comments, at the lines and
columns where they were, and the errors that it had. What the grammar and
the analysis make of the source does not change at all.

The source is blanked by looking at positions: a character is made a space
if its position lies in the span of a comment token. That this is the same
as blanking piece by piece follows from the order of positions, since no
comment reaches into the text of another piece. The pieces of the blanked
text are then found one after another. In front of a piece stands what
stood there before, or a space instead of a comment sign, and a space never
goes on with a token.

## Main results

* `blankWhere_eq_blank` — comments are blanked piece by piece.
* `tokensFrom_blank` — the tokens and the errors of a blanked text.
* `scan_blankComments` — a source and its blanked text mean the same.
-/

namespace ImpFront

open Token (Kind)

namespace Position

instance (a b : Position) : Decidable (a.Before b) :=
  inferInstanceAs (Decidable (_ ∨ _))

theorem not_before_self (pos : Position) : ¬pos.Before pos := by
  unfold Before
  omega

/-- What comes before a text comes before all that is behind it. -/
theorem Before.after {a pos : Position} (h : a.Before pos)
    (text : List Char) : a.Before (pos.after text) := by
  cases text with
  | nil => exact h
  | cons c text => exact h.trans (before_after (List.cons_ne_nil c text) pos)

end Position

namespace Token

/-- A comment has a character at the position. -/
def IsCommentAt (token : Token) (pos : Position) : Prop :=
  token.kind.isComment = true ∧ ¬pos.Before token.position ∧
    pos.Before (token.position.after token.lexeme.toList)

instance (token : Token) (pos : Position) :
    Decidable (token.IsCommentAt pos) :=
  inferInstanceAs (Decidable (_ ∧ _))

end Token

namespace Source

/-- Does one of the comments among the tokens have a character at the
position? -/
def inComment (tokens : List Token) (pos : Position) : Bool :=
  tokens.any fun token => token.IsCommentAt pos

/-- A space in the place of every character but a newline. -/
def blankChar (c : Char) : Char := if c = '\n' then c else ' '

/-- A text that begins at `pos`, with spaces at the positions of a class. -/
def blankWhere (inside : Position → Bool) (pos : Position) :
    List Char → List Char
  | [] => []
  | c :: text =>
    (if inside pos then blankChar c else c) ::
      blankWhere inside (pos.next c) text

/-- A source with spaces in the place of its comments. -/
def blankComments (source : String) : String :=
  String.ofList
    (blankWhere (inComment (scan source).tokens) .start source.toList)

/-! ## Blanking by position -/

section BlankWhere

variable {inside inside' : Position → Bool} {pos : Position}
  {text rest : List Char}

theorem blankWhere_append :
    blankWhere inside pos (text ++ rest) =
      blankWhere inside pos text ++
        blankWhere inside (pos.after text) rest := by
  induction text generalizing pos with
  | nil => rfl
  | cons c text ih => exact congrArg _ ih

/-- Only the positions of the text itself matter. -/
theorem blankWhere_congr
    (h : ∀ p, ¬p.Before pos → p.Before (pos.after text) →
      inside p = inside' p) :
    blankWhere inside pos text = blankWhere inside' pos text := by
  induction text generalizing pos with
  | nil => rfl
  | cons c text ih =>
      have hHead := h pos (Position.not_before_self pos)
        (Position.before_after (List.cons_ne_nil c text) pos)
      have hText : blankWhere inside (pos.next c) text =
          blankWhere inside' (pos.next c) text := by
        refine ih fun p hLow hHigh => h p ?_ hHigh
        exact fun hBefore => hLow (hBefore.after [c])
      rw [blankWhere, blankWhere, hHead, hText]

theorem blankWhere_true :
    blankWhere (fun _ => true) pos text = text.map blankChar := by
  induction text generalizing pos with
  | nil => rfl
  | cons c text ih => exact congrArg _ ih

theorem blankWhere_false : blankWhere (fun _ => false) pos text = text := by
  induction text generalizing pos with
  | nil => rfl
  | cons c text ih => exact congrArg _ ih

end BlankWhere

/-! ## Blanking piece by piece -/

namespace Piece

/-- Is the piece a comment that is closed? -/
def isComment : Piece → Bool
  | token kind _ => kind.isComment
  | _ => false

/-- What a piece leaves in the blanked text. -/
def blanked (piece : Piece) : List Char :=
  if piece.isComment then piece.raw.map blankChar else piece.raw

end Piece

/-- A text in which the pieces that are comments are blanked. -/
def blank (text : List Char) : List Char := (cut text).flatMap Piece.blanked

@[simp] theorem blank_nil : blank [] = [] := by rw [blank, cut_nil]; rfl

theorem blank_append {piece : Piece} {rest : List Char}
    (h : piece.IsFirst rest) :
    blank (piece.raw ++ rest) = piece.blanked ++ blank rest := by
  rw [blank, cut_append h, List.flatMap_cons, ← blank]

theorem inComment_append (first second : List Token) (pos : Position) :
    inComment (first ++ second) pos =
      (inComment first pos || inComment second pos) :=
  List.any_append

section Token

variable {piece : Piece} {pos p : Position}

/-- The comment that a piece makes stands where the piece does. -/
theorem inComment_token? :
    inComment (piece.token? pos).toList p =
      (piece.isComment && !decide (p.Before pos) &&
        decide (p.Before (pos.after piece.raw))) := by
  cases piece with
  | token kind text =>
      show _ = (kind.isComment && !decide (p.Before pos) &&
        decide (p.Before (pos.after text)))
      simp [inComment, Piece.token?, Token.IsCommentAt, Bool.and_assoc]
  | _ => simp [inComment, Piece.token?, Piece.isComment, Token.IsCommentAt,
      Kind.isComment]

/-- The comments of a text begin no earlier than the text. -/
theorem inComment_tokensFrom {pieces : List Piece}
    (hBefore : p.Before pos) :
    inComment (tokensFrom pos pieces) p = false := by
  induction pieces generalizing pos with
  | nil => rfl
  | cons piece pieces ih =>
      have hRest := ih (hBefore.after piece.raw)
      rw [tokensFrom_cons, inComment_append, inComment_token?, hRest]
      simp [hBefore]

end Token

/-- A piece is blanked if it is a comment, whatever stands behind it. -/
theorem blankWhere_raw (piece : Piece) (pos : Position)
    (pieces : List Piece) :
    blankWhere (inComment ((piece.token? pos).toList ++
        tokensFrom (pos.after piece.raw) pieces)) pos piece.raw =
      piece.blanked := by
  have hConst : blankWhere (inComment ((piece.token? pos).toList ++
        tokensFrom (pos.after piece.raw) pieces)) pos piece.raw =
      blankWhere (fun _ => piece.isComment) pos piece.raw := by
    refine blankWhere_congr fun p hLow hHigh => ?_
    rw [inComment_append, inComment_token?, inComment_tokensFrom hHigh]
    simp [hLow, hHigh]
  rw [hConst, Piece.blanked]
  cases piece.isComment with
  | true => exact blankWhere_true
  | false => exact blankWhere_false

/-- Blanking the positions of the comments is blanking the pieces that are
comments. -/
theorem blankWhere_eq_blank (pos : Position) (text : List Char) :
    blankWhere (inComment (tokensFrom pos (cut text))) pos text =
      blank text := by
  match text with
  | [] => rw [blank_nil, blankWhere]
  | c :: text =>
      have hFirst := Piece.isFirst_first c text
      have hRest := blankWhere_eq_blank (pos.after (Piece.first c text).1.raw)
        (Piece.first c text).2
      rw [← Piece.raw_first_append c text, blank_append hFirst,
        cut_append hFirst, tokensFrom_cons, blankWhere_append, blankWhere_raw,
        ← hRest]
      -- behind the piece its own comment has come to its end
      refine congrArg _ (blankWhere_congr fun p hLow _ => ?_)
      rw [inComment_append, inComment_token?]
      simp [hLow]
termination_by text.length
decreasing_by exact Piece.length_first_lt c text

/-! ## The pieces of the blanked text -/

theorem isWhiteSpace_blankChar (c : Char) :
    Text.isWhiteSpace (blankChar c) = true := by
  rw [blankChar]
  split
  · next h =>
    rw [h]
    decide
  · decide

theorem isGap_blankChar (text : List Char) :
    IsGap (text.map blankChar) :=
  List.forall_mem_map.2 fun c _ => isWhiteSpace_blankChar c

theorem after_blankChar (pos : Position) (text : List Char) :
    pos.after (text.map blankChar) = pos.after text := by
  induction text generalizing pos with
  | nil => rfl
  | cons c text ih =>
      have hNext : pos.next (blankChar c) = pos.next c := by
        by_cases hNewline : c = '\n' <;>
          simp [blankChar, Position.next, hNewline]
      rw [List.map_cons, Position.after_cons, hNext]
      exact ih _

theorem after_blanked (pos : Position) (piece : Piece) :
    pos.after piece.blanked = pos.after piece.raw := by
  rw [Piece.blanked]
  split
  · exact after_blankChar pos piece.raw
  · rfl

/-- White space in front of a text leaves nothing but its width. -/
theorem tokensFrom_gap {gap : List Char} (hGap : IsGap gap) (pos : Position)
    (rest : List Char) :
    tokensFrom pos (cut (gap ++ rest)) =
        tokensFrom (pos.after gap) (cut rest) ∧
      errorsFrom pos (cut (gap ++ rest)) =
        errorsFrom (pos.after gap) (cut rest) := by
  induction gap generalizing pos with
  | nil => exact ⟨rfl, rfl⟩
  | cons c gap ih =>
      obtain ⟨hBlank, hGap⟩ := List.forall_mem_cons.1 hGap
      rw [List.cons_append, cut_blank hBlank, tokensFrom_cons, errorsFrom_cons]
      exact ih hGap (pos.next c)

/-- A blanked text begins as the text does, or with a space. -/
theorem head?_blank (text : List Char) :
    (blank text).head? = text.head? ∨ (blank text).head? = some ' ' := by
  cases text with
  | nil => exact .inl (by rw [blank_nil])
  | cons c text =>
      have hFirst := Piece.isFirst_first c text
      have hText := Piece.raw_first_append c text
      have hNe := Piece.raw_first_ne_nil c text
      generalize (Piece.first c text).1 = piece at *
      generalize (Piece.first c text).2 = rest at *
      obtain ⟨d, raw, hRaw⟩ := List.exists_cons_of_ne_nil hNe
      rw [← hText, blank_append hFirst, Piece.blanked, hRaw]
      by_cases hComment : piece.isComment = true
      · rw [if_pos hComment]
        by_cases hNewline : d = '\n'
        · exact .inl (by simp [blankChar, hNewline])
        · exact .inr (by simp [blankChar, hNewline])
      · rw [if_neg hComment]
        exact .inl rfl

/-- What is true of the character behind a piece stays true if it is true
of a space. -/
theorem forall_head?_blank {P : Char → Prop} {text : List Char}
    (hSpace : P ' ') (h : ∀ c ∈ text.head?, P c) :
    ∀ c ∈ (blank text).head?, P c := by
  obtain hSame | hBlank := head?_blank text
  · rwa [hSame]
  · rw [hBlank]
    rintro c ⟨⟩
    exact hSpace

/-- A piece that is no comment stays the first one when the comments behind
it are blanked. -/
theorem isFirst_blank {piece : Piece} {rest : List Char}
    (h : piece.IsFirst rest) (hComment : piece.isComment = false) :
    piece.IsFirst (blank rest) := by
  have hSpace : Text.isWhiteSpace ' ' = true := by decide
  cases piece with
  | blank | quoted => exact h
  | openString | openComment =>
      obtain ⟨hText, rfl⟩ := h
      exact ⟨hText, blank_nil⟩
  | token kind text =>
      obtain ⟨hString, hForm, hNext, hPair⟩ := h
      have hKind : kind ≠ .lineComment := by
        rintro rfl
        cases hComment
      refine ⟨hString, hForm, ?_, ?_⟩
      · exact forall_head?_blank
          (goesOn_eq_false_of_isWhiteSpace hKind hSpace) hNext
      · intro c hSingle
        exact forall_head?_blank
          (ofPair?_eq_none_of_isWhiteSpace c hSpace) (hPair c hSingle)

theorem filter_token? (piece : Piece) (pos : Position) :
    (piece.token? pos).toList.filter (fun token => !token.kind.isComment) =
      if piece.isComment then [] else (piece.token? pos).toList := by
  cases piece with
  | token kind text =>
      cases hComment : kind.isComment <;>
        simp [Piece.token?, Piece.isComment, hComment]
  | _ => simp [Piece.token?, Piece.isComment, Kind.isComment]

theorem error?_of_isComment {piece : Piece} (h : piece.isComment = true)
    (pos : Position) : piece.error? pos = none := by
  cases piece with
  | token => rfl
  | _ => cases h

/-- The tokens of a blanked text are those of the text without the
comments, and the errors are the same. -/
theorem tokensFrom_blank (pos : Position) (text : List Char) :
    tokensFrom pos (cut (blank text)) =
        (tokensFrom pos (cut text)).filter
          (fun token => !token.kind.isComment) ∧
      errorsFrom pos (cut (blank text)) = errorsFrom pos (cut text) := by
  match text with
  | [] => simp
  | c :: text =>
      have hFirst := Piece.isFirst_first c text
      obtain ⟨hTokens, hErrors⟩ :=
        tokensFrom_blank (pos.after (Piece.first c text).1.raw)
          (Piece.first c text).2
      rw [← Piece.raw_first_append c text, blank_append hFirst,
        cut_append hFirst, tokensFrom_cons, errorsFrom_cons,
        List.filter_append, filter_token?]
      generalize (Piece.first c text).1 = piece at *
      generalize (Piece.first c text).2 = rest at *
      by_cases hComment : piece.isComment = true
      · have hGap := tokensFrom_gap (isGap_blankChar piece.raw) pos (blank rest)
        rw [after_blankChar] at hGap
        rw [Piece.blanked, if_pos hComment, if_pos hComment,
          error?_of_isComment hComment, ← hTokens, ← hErrors]
        exact hGap
      · have hStays := isFirst_blank hFirst (Bool.not_eq_true _ ▸ hComment)
        rw [Piece.blanked, if_neg hComment, if_neg hComment,
          cut_append hStays, tokensFrom_cons, errorsFrom_cons, hTokens, hErrors]
        simp
termination_by text.length
decreasing_by exact Piece.length_first_lt c text

theorem after_blank (pos : Position) (text : List Char) :
    pos.after (blank text) = pos.after text := by
  match text with
  | [] => rw [blank_nil]
  | c :: text =>
      have hRest := after_blank (pos.after (Piece.first c text).1.raw)
        (Piece.first c text).2
      rw [← Piece.raw_first_append c text,
        blank_append (Piece.isFirst_first c text), Position.after_append,
        Position.after_append, after_blanked, hRest]
termination_by text.length
decreasing_by exact Piece.length_first_lt c text

/-! ## Sources -/

theorem toList_blankComments (source : String) :
    (blankComments source).toList = blank source.toList := by
  have hEnd : inComment (scan source).tokens =
      inComment (tokensFrom .start (cut source.toList)) := by
    funext pos
    rw [tokens_scan, inComment_append]
    exact Bool.or_false _
  rw [blankComments, String.toList_ofList, hEnd, blankWhere_eq_blank]

/-- **Comments are white space.** A source in which the comments are made
spaces has the tokens of the source without the comments, each where it
was, and the same errors; and so it is read as the same program, and the
same is found in it. -/
theorem scan_blankComments (source : String) :
    (scan (blankComments source)).tokens =
        (scan source).tokens.filter (fun token => !token.kind.isComment) ∧
      (scan (blankComments source)).errors = (scan source).errors ∧
      Program.ofTokens (scan (blankComments source)).tokens =
        Program.ofTokens (scan source).tokens ∧
      Analysis.ofStmts
          (Program.ofTokens (scan (blankComments source)).tokens).stmts =
        Analysis.ofStmts (Program.ofTokens (scan source).tokens).stmts := by
  obtain ⟨hFrom, hErrors⟩ := tokensFrom_blank .start source.toList
  have hTokens : (scan (blankComments source)).tokens =
      (scan source).tokens.filter fun token => !token.kind.isComment := by
    rw [tokens_scan, tokens_scan, toList_blankComments, after_blank, hFrom,
      List.filter_append]
    rfl
  have hProgram : Program.ofTokens (scan (blankComments source)).tokens =
      Program.ofTokens (scan source).tokens := by
    rw [hTokens, ofTokens_filter]
  refine ⟨hTokens, ?_, hProgram, ?_⟩
  · rw [errors_scan, errors_scan, toList_blankComments, hErrors]
  · rw [hProgram]

end Source

end ImpFront
