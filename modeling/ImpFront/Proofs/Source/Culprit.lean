import ImpFront.Proofs.Text.Lines

/-!
# What an error is about

An error is reported at a character of the source: a comment that is not
closed at its first one, a token at its first one, a string constant at its
closing quote. What is missing at the end of the source is reported behind
all characters. Wherever that is, the position of the report leads to it
among the lines of the source, because no such character ends a line.

## Main results

* `exists_standsAt_token`, `exists_standsAt_error` — where the tokens and the
  errors of a source are reported.
-/

namespace ImpFront

/-- Where the character of a source is at which a token is reported: its
first one, or the closing quote of a string constant. The end of the input
is behind all characters. -/
inductive Token.StandsAt (source : List Char) (token : Token) : Nat → Prop
  | first {before lexeme behind : List Char} {c : Char}
      (hString : token.kind ≠ .string) (hEnd : token.kind ≠ .endOfInput)
      (hLexeme : token.lexeme.toList = c :: lexeme)
      (hText : source = before ++ c :: (lexeme ++ behind)) :
      StandsAt source token before.length
  | closing {before behind : List Char} (hString : token.kind = .string)
      (hText : source =
        before ++ '"' :: token.lexeme.toList ++ '"' :: behind) :
      StandsAt source token (before ++ '"' :: token.lexeme.toList).length
  | finish (hEnd : token.kind = .endOfInput) :
      StandsAt source token source.length

/-- Where the character of a source is at which something is reported that
is not closed: the first one of a comment. The quote that a string misses is
behind all characters. -/
inductive LexicalFault.StandsAt (source : List Char) :
    LexicalFault → Nat → Prop
  | openString {before tail : List Char} (hText : source = before ++ tail)
      (hOpen : Source.OpenString tail) :
      StandsAt source .openString source.length
  | openComment {before tail : List Char} (hText : source = before ++ tail)
      (hOpen : Source.OpenComment tail) :
      StandsAt source .openComment before.length

theorem Token.StandsAt.lt_length {source : List Char} {token : Token}
    {offset : Nat} (h : token.StandsAt source offset)
    (hEnd : token.kind ≠ .endOfInput) : offset < source.length := by
  cases h with
  | first _ _ _ hText | closing _ hText =>
      simp only [hText, List.length_append, List.length_cons]
      omega
  | finish hKind => exact absurd hKind hEnd

theorem Token.StandsAt.le_length {source : List Char} {token : Token}
    {offset : Nat} (h : token.StandsAt source offset) :
    offset ≤ source.length := by
  by_cases hEnd : token.kind = .endOfInput
  · cases h with
    | first _ hNotEnd => exact absurd hEnd hNotEnd
    | closing hString =>
        rw [hEnd] at hString
        cases hString
    | finish => exact Nat.le_refl _
  · exact Nat.le_of_lt (h.lt_length hEnd)

theorem LexicalFault.StandsAt.le_length {source : List Char}
    {fault : LexicalFault} {offset : Nat} (h : fault.StandsAt source offset) :
    offset ≤ source.length := by
  cases h with
  | openString => exact Nat.le_refl _
  | openComment hText =>
      rw [hText, List.length_append]
      exact Nat.le_add_right _ _

namespace Source

theorem ne_of_not_isWhiteSpace {c : Char} (h : Text.isWhiteSpace c ≠ true) :
    c ≠ '\n' ∧ c ≠ '\r' := by
  constructor
  · rintro rfl
    exact h (by decide)
  · rintro rfl
    exact h (by decide)

/-- No token begins with white space. -/
theorem not_isWhiteSpace_of_token {c : Char} {text rest lexeme : List Char}
    {kind : Token.Kind}
    (h : Piece.first c text = (.token kind lexeme, rest)) :
    Text.isWhiteSpace c ≠ true := by
  intro hBlank
  unfold Piece.first at h
  rw [if_pos hBlank] at h
  cases h

section Positions

variable {text : List Char} {site : Site}

/-- The position of a token leads to the character that it is reported
at. -/
theorem Site.IsCut.standsAt (h : site.IsCut)
    (hText : text = site.upTo ++ site.behind) :
    ∃ offset, site.token.StandsAt text offset ∧
      site.token.position.InLines text offset := by
  obtain ⟨before, token, behind⟩ := site
  obtain ⟨c, rest, piece, hFirst, hRaw, hToken⟩ := h
  dsimp only [upTo] at hText hFirst hRaw hToken ⊢
  have hPiece := Piece.wellCut_first c rest
  have hSplit := Piece.raw_first_append c rest
  have hNonempty := Piece.raw_first_ne_nil c rest
  rw [hFirst] at hPiece hSplit hNonempty
  rw [List.append_assoc, hRaw] at hText
  cases piece with
  | token kind lexeme =>
      cases hToken
      obtain ⟨hString, hEnd⟩ := hPiece
      obtain ⟨hNewline, hReturn⟩ :=
        ne_of_not_isWhiteSpace (not_isWhiteSpace_of_token hFirst)
      obtain ⟨d, more, rfl⟩ := List.exists_cons_of_ne_nil hNonempty
      obtain ⟨rfl, hRest⟩ := List.cons.inj hSplit
      rw [hText, ← hRest]
      exact ⟨before.length, .first hString hEnd String.toList_ofList rfl,
        Position.inLines_char hNewline hReturn before _⟩
  | quoted lexeme =>
      cases hToken
      have hLexeme : (String.ofList lexeme).toList = lexeme :=
        String.toList_ofList
      have hQuoted : text =
          before ++ '"' :: (String.ofList lexeme).toList ++ '"' :: behind := by
        rw [hText, ← hSplit, hLexeme]
        simp [Piece.raw]
      have hPosition : Piece.endOfQuoted (Position.start.after before) lexeme =
          Position.start.after (before ++ '"' :: lexeme) := by
        rw [Position.after_append]
        rfl
      refine ⟨_, .closing rfl hQuoted, ?_⟩
      rw [hPosition, hQuoted, hLexeme]
      exact Position.inLines_char (by decide) (by decide) _ _
  | blank | openString | openComment => cases hToken

/-- The position of what is not closed leads to the character that it is
reported at. -/
theorem Ending.standsAt {front tail : List Char} {errors : List LexicalError}
    (h : Ending front tail errors) :
    ∀ error ∈ errors, ∃ offset,
      error.fault.StandsAt (front ++ tail) offset ∧
        error.position.InLines (front ++ tail) offset := by
  cases h with
  | clean => exact List.forall_mem_nil _
  | openString hOpen =>
      refine List.forall_mem_singleton.2 ⟨_, .openString rfl hOpen, ?_⟩
      refine Position.inLines_end ?_
      obtain ⟨body, rfl, -⟩ := hOpen
      exact List.append_ne_nil_of_right_ne_nil _ (List.cons_ne_nil _ _)
  | openComment hOpen =>
      refine List.forall_mem_singleton.2 ⟨_, .openComment rfl hOpen, ?_⟩
      obtain ⟨body, rfl, -⟩ := hOpen
      exact Position.inLines_char (by decide) (by decide) _ _

end Positions

/-! ## The tokens and the errors of a source -/

variable {source : String}

/-- Every token of a source that is not empty stands where its position
leads to. -/
theorem exists_standsAt_token (hSource : source.toList ≠ []) :
    ∀ token ∈ (scan source).tokens, ∃ offset,
      token.StandsAt source.toList offset ∧
        token.position.InLines source.toList offset := by
  obtain ⟨sites, front, tail, hTokens, hLays, hCut, -, -⟩ :=
    exists_sites source
  rw [hTokens, List.forall_mem_append, List.forall_mem_map]
  constructor
  · intro site hMem
    exact (hCut site hMem).standsAt (hLays.text_eq site hMem)
  · refine List.forall_mem_singleton.2 ⟨_, .finish rfl, ?_⟩
    exact Position.inLines_end hSource

/-- Every fault of a source stands where its position leads to. -/
theorem exists_standsAt_error (source : String) :
    ∀ error ∈ (scan source).errors, ∃ offset,
      error.fault.StandsAt source.toList offset ∧
        error.position.InLines source.toList offset := by
  obtain ⟨sites, front, tail, -, -, -, hText, hEnding⟩ := exists_sites source
  rw [hText]
  exact hEnding.standsAt

end Source

end ImpFront
