import ImpFront.Proofs.Source.Pieces

/-!
# Scanning loses nothing

A source text is put together again from its tokens: each token gives back
the text it was made from, and between them stands white space alone. What
may be missing at the end is a string or a comment that is never closed,
and then it is all that is missing and the only error.

`Splits` follows the pieces of the text: white space goes to a gap, a
token gives back its raw text, and a piece that is not closed is the last
one.

## Main results

* `splits_cut` — the pieces of a text split it.
* `scan_lossless` — gaps, tokens and an unclosed rest make up the text.
-/

namespace ImpFront

open Token (Kind)

/-- The text that a token was made from: for a string constant, the quotes
around it included. -/
def Token.raw (token : Token) : List Char :=
  if token.kind = .string then '"' :: token.lexeme.toList ++ ['"']
  else token.lexeme.toList

namespace Source

/-- A quote that no other one follows. -/
def OpenString (text : List Char) : Prop :=
  ∃ body, text = '"' :: body ∧ '"' ∉ body

/-- A comment sign behind which the comment is not closed. -/
def OpenComment (text : List Char) : Prop :=
  ∃ body, text = '/' :: '*' :: body ∧ ¬['*', '/'] <:+: body

/-- White space. -/
def IsGap (text : List Char) : Prop :=
  ∀ c ∈ text, Text.isWhiteSpace c = true

/-- What a text may end with, and the errors that there are then: nothing
without an error, or one thing that is not closed, with the error for it. -/
def IsTail (text : List Char) (errors : List LexicalError) : Prop :=
  (text = [] ∧ errors = []) ∨
    ∃ error, errors = [error] ∧
      ((OpenString text ∧
          error.fault.message = "Cadena sin cierre de comillas") ∨
        (OpenComment text ∧
          error.fault.message = "Comentario multilínea sin cierre"))

/-- How a text is made up of white space and of the texts of tokens, in
their order, with the errors at its end. -/
inductive Splits : List Char → List Token → List LexicalError → Prop
  | done : Splits [] [] []
  | blank {c : Char} {text : List Char} {tokens : List Token}
      {errors : List LexicalError} (hBlank : Text.isWhiteSpace c = true)
      (hRest : Splits text tokens errors) : Splits (c :: text) tokens errors
  | token {token : Token} {text : List Char} {tokens : List Token}
      {errors : List LexicalError} {raw : List Char} (hRaw : token.raw = raw)
      (hKind : token.kind ≠ .endOfInput) (hRest : Splits text tokens errors) :
      Splits (raw ++ text) (token :: tokens) errors
  | openString {text : List Char} (pos : Position) (h : OpenString text) :
      Splits text [] [⟨.openString, pos⟩]
  | openComment {text : List Char} (pos : Position) (h : OpenComment text) :
      Splits text [] [⟨.openComment, pos⟩]

theorem raw_of_ne {kind : Kind} {pos : Position} {text : List Char}
    (h : kind ≠ .string) : (⟨kind, String.ofList text, pos⟩ : Token).raw = text := by
  rw [Token.raw, if_neg h, String.toList_ofList]

theorem raw_quoted (pos : Position) (text : List Char) :
    (⟨.string, String.ofList text, pos⟩ : Token).raw = '"' :: text ++ ['"'] := by
  rw [Token.raw, if_pos rfl, String.toList_ofList]

/-- A piece in front of what splits: an unclosed one has nothing behind
it, the others go before the tokens that are there. -/
theorem Splits.cons {pos : Position} {piece : Piece} {rest : List Char}
    (hPiece : piece.WellCut rest)
    (hRest : Splits rest (tokensFrom (pos.after piece.raw) (cut rest))
      (errorsFrom (pos.after piece.raw) (cut rest))) :
    Splits (piece.raw ++ rest) (tokensFrom pos (piece :: cut rest))
      (errorsFrom pos (piece :: cut rest)) := by
  rw [tokensFrom_cons, errorsFrom_cons]
  cases piece with
  | blank c => exact .blank hPiece hRest
  | token kind text =>
      exact .token (raw_of_ne hPiece.1) hPiece.2 hRest
  | quoted text => exact .token (raw_quoted _ text) nofun hRest
  | openString body =>
      obtain ⟨hBody, rfl⟩ := hPiece
      rw [List.append_nil, cut_nil, tokensFrom_nil, errorsFrom_nil]
      exact .openString _ ⟨body, rfl, hBody⟩
  | openComment body =>
      obtain ⟨hBody, rfl⟩ := hPiece
      rw [List.append_nil, cut_nil, tokensFrom_nil, errorsFrom_nil]
      exact .openComment _ ⟨body, rfl, hBody⟩

theorem splits_cut (pos : Position) (text : List Char) :
    Splits text (tokensFrom pos (cut text)) (errorsFrom pos (cut text)) := by
  match text with
  | [] =>
      rw [cut_nil]
      exact .done
  | c :: text =>
      have ih := splits_cut (pos.after (Piece.first c text).1.raw)
        (Piece.first c text).2
      have h := Splits.cons (Piece.wellCut_first c text) ih
      rw [Piece.raw_first_append, ← cut_cons] at h
      exact h
termination_by text.length
decreasing_by exact Piece.length_first_lt c text

/-- The white space between two tokens is a gap. -/
theorem Splits.exists_gaps {text : List Char} {tokens : List Token}
    {errors : List LexicalError} (h : Splits text tokens errors) :
    ∃ (gap : List Char) (spaced : List (Token × List Char)) (tail : List Char),
      spaced.map Prod.fst = tokens ∧
      text = gap ++ spaced.flatMap (fun pair => pair.1.raw ++ pair.2) ++
        tail ∧
      IsGap gap ∧ (∀ pair ∈ spaced, IsGap pair.2) ∧ IsTail tail errors := by
  induction h with
  | done => exact ⟨[], [], [], rfl, rfl, nofun, nofun, .inl ⟨rfl, rfl⟩⟩
  | @blank c text tokens errors hBlank _ ih =>
      obtain ⟨gap, spaced, tail, hTokens, hText, hGap, hSpaced, hTail⟩ := ih
      refine ⟨c :: gap, spaced, tail, hTokens, ?_, ?_, hSpaced, hTail⟩
      · rw [hText]
        rfl
      · exact List.forall_mem_cons.2 ⟨hBlank, hGap⟩
  | @token token text tokens errors raw hRaw _ _ ih =>
      obtain ⟨gap, spaced, tail, hTokens, hText, hGap, hSpaced, hTail⟩ := ih
      refine ⟨[], (token, gap) :: spaced, tail, ?_, ?_, nofun, ?_, hTail⟩
      · rw [List.map_cons, hTokens]
      · rw [hText, ← hRaw, List.flatMap_cons]
        simp only [List.nil_append, List.append_assoc]
      · exact List.forall_mem_cons.2 ⟨hGap, hSpaced⟩
  | @openString text pos hOpen =>
      exact ⟨[], [], text, rfl, rfl, nofun, nofun,
        .inr ⟨_, rfl, .inl ⟨hOpen, rfl⟩⟩⟩
  | @openComment text pos hOpen =>
      exact ⟨[], [], text, rfl, rfl, nofun, nofun,
        .inr ⟨_, rfl, .inr ⟨hOpen, rfl⟩⟩⟩

theorem Splits.kind_ne {text : List Char} {tokens : List Token}
    {errors : List LexicalError} (h : Splits text tokens errors) :
    ∀ token ∈ tokens, token.kind ≠ .endOfInput := by
  induction h with
  | done | openString | openComment => exact nofun
  | blank _ _ ih => exact ih
  | token _ hKind _ ih => exact List.forall_mem_cons.2 ⟨hKind, ih⟩

/-- **Scanning loses nothing.** A text is a gap and then, token by token,
the text that the token was made from and another gap; at its end stands
what is not closed, if anything is, and that is what the only error is
about. The last token, and no other, is the end of the input. -/
theorem scan_lossless (source : String) :
    ∃ (tokens : List Token) (finish : Token) (gap : List Char)
      (spaced : List (Token × List Char)) (tail : List Char),
      (scan source).tokens = tokens ++ [finish] ∧
      finish.kind = .endOfInput ∧
      (∀ token ∈ tokens, token.kind ≠ .endOfInput) ∧
      spaced.map Prod.fst = tokens ∧
      source.toList =
        gap ++ spaced.flatMap (fun pair => pair.1.raw ++ pair.2) ++ tail ∧
      IsGap gap ∧ (∀ pair ∈ spaced, IsGap pair.2) ∧
      IsTail tail (scan source).errors := by
  rw [tokens_scan, errors_scan]
  have hSplits := splits_cut .start source.toList
  obtain ⟨gap, spaced, tail, hTokens, hText, hGap, hSpaced, hTail⟩ :=
    hSplits.exists_gaps
  exact ⟨_, _, gap, spaced, tail, rfl, rfl, hSplits.kind_ne, hTokens, hText,
    hGap, hSpaced, hTail⟩

end Source

end ImpFront
