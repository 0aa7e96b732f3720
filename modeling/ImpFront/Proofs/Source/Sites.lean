import ImpFront.Proofs.Source.Lossless

/-!
# Where the tokens of a text stand

A site is a token in its source, with all that stands before it and all
that stands behind it. `Lays` says that sites follow one another through a
source with nothing but white space between them, which leaves no choice
where a token stands. What is said of a token and its neighbours is said of
its site.

Each site is a step of the scan: its token is the first piece of what the
source goes on with there, and the pieces before it lead to its place. So a
fact about the sites of a text follows from one about `Piece.first`.

## Main results

* `hasSites_cons` — what the first piece adds to the sites of the rest.
* `exists_sites` — the sites of a source, and what it ends with.
-/

namespace ImpFront.Source

/-- A token with the text before it and the text behind it. -/
structure Site where
  before : List Char
  token : Token
  behind : List Char

namespace Site

/-- Everything up to the end of the token. -/
def upTo (site : Site) : List Char := site.before ++ site.token.raw

/-- The token is what the first piece of the text makes that begins with
it, at the position that the text before leads to. -/
def IsCut (site : Site) : Prop :=
  ∃ c text piece, Piece.first c text = (piece, site.behind) ∧
    site.token.raw ++ site.behind = c :: text ∧
    piece.token? (Position.start.after site.before) = some site.token

/-- A token has a text. -/
theorem IsCut.raw_ne_nil {site : Site} (h : site.IsCut) :
    site.token.raw ≠ [] := by
  obtain ⟨c, text, piece, hFirst, hText, _⟩ := h
  intro hNil
  have hShorter := Piece.length_first_lt c text
  rw [hFirst, ← hText, hNil] at hShorter
  exact Nat.lt_irrefl _ hShorter

end Site

/-- Behind `before`, the source goes on with the tokens of the sites, in
their order and with white space alone between them, and then with white
space and `tail`. -/
inductive Lays (source : List Char) :
    List Char → List Site → List Char → Prop
  | done {before gap tail : List Char} (hGap : IsGap gap)
      (hText : source = before ++ gap ++ tail) : Lays source before [] tail
  | site {before gap tail : List Char} {site : Site} {sites : List Site}
      (hGap : IsGap gap) (hBefore : site.before = before ++ gap)
      (hRaw : site.token.raw ≠ []) (hText : source = site.upTo ++ site.behind)
      (hRest : Lays source site.upTo sites tail) :
      Lays source before (site :: sites) tail

theorem isGap_nil : IsGap [] := List.forall_mem_nil _

/-- White space goes to the gap in front of what follows. -/
theorem Lays.blank {source before : List Char} {sites : List Site}
    {tail : List Char} {c : Char} (hBlank : Text.isWhiteSpace c = true)
    (h : Lays source (before ++ [c]) sites tail) :
    Lays source before sites tail := by
  have hCons {gap : List Char} (hGap : IsGap gap) : IsGap (c :: gap) :=
    List.forall_mem_cons.2 ⟨hBlank, hGap⟩
  cases h with
  | done hGap hText =>
      refine .done (hCons hGap) ?_
      simpa using hText
  | site hGap hBefore hRaw hText hRest =>
      refine .site (hCons hGap) ?_ hRaw hText hRest
      simpa using hBefore

/-- What a text can end with behind `before`, and the errors that there
are then: nothing, or something that is not closed. -/
inductive Ending (before : List Char) :
    List Char → List LexicalError → Prop
  | clean : Ending before [] []
  | openString {tail : List Char} (h : OpenString tail) :
      Ending before tail
        [⟨.openString, Position.start.after (before ++ tail)⟩]
  | openComment {tail : List Char} (h : OpenComment tail) :
      Ending before tail [⟨.openComment, Position.start.after before⟩]

/-! ## Piece by piece -/

/-- The tokens of a text that stands behind `before`. -/
def tokensBehind (before text : List Char) : List Token :=
  tokensFrom (Position.start.after before) (cut text)

/-- The errors of a text that stands behind `before`. -/
def errorsBehind (before text : List Char) : List LexicalError :=
  errorsFrom (Position.start.after before) (cut text)

@[simp] theorem tokensBehind_nil (before : List Char) :
    tokensBehind before [] = [] := by
  rw [tokensBehind, cut_nil, tokensFrom_nil]

@[simp] theorem errorsBehind_nil (before : List Char) :
    errorsBehind before [] = [] := by
  rw [errorsBehind, cut_nil, errorsFrom_nil]

/-- A text behind `before` has sites for its tokens, and an end. -/
def HasSites (before text : List Char) : Prop :=
  ∃ (sites : List Site) (front tail : List Char),
    tokensBehind before text = sites.map Site.token ∧
    Lays (before ++ text) before sites tail ∧
    (∀ site ∈ sites, site.IsCut) ∧
    before ++ text = front ++ tail ∧
    Ending front tail (errorsBehind before text)

section Cons

variable {before text rest : List Char} {c : Char} {piece : Piece}

theorem tokensBehind_cons (hFirst : Piece.first c text = (piece, rest)) :
    tokensBehind before (c :: text) =
      (piece.token? (Position.start.after before)).toList ++
        tokensBehind (before ++ piece.raw) rest := by
  rw [tokensBehind, cut_cons, hFirst, tokensFrom_cons,
    ← Position.after_append]
  rfl

theorem errorsBehind_cons (hFirst : Piece.first c text = (piece, rest)) :
    errorsBehind before (c :: text) =
      (piece.error? (Position.start.after before)).toList ++
        errorsBehind (before ++ piece.raw) rest := by
  rw [errorsBehind, cut_cons, hFirst, errorsFrom_cons,
    ← Position.after_append]
  rfl

/-- White space in front of a text stands in a gap. -/
theorem HasSites.blank (hFirst : Piece.first c text = (.blank c, rest))
    (hBlank : Text.isWhiteSpace c = true) (hText : c :: text = [c] ++ rest)
    (h : HasSites (before ++ [c]) rest) : HasSites before (c :: text) := by
  obtain ⟨sites, front, tail, hTokens, hLays, hSites, hTail, hEnding⟩ := h
  rw [List.append_assoc, ← hText] at hLays hTail
  exact ⟨sites, front, tail, (tokensBehind_cons hFirst).trans hTokens,
    hLays.blank hBlank, hSites, hTail,
    (errorsBehind_cons hFirst).symm ▸ hEnding⟩

/-- A token in front of a text has a site of its own. -/
theorem HasSites.token {token : Token}
    (hFirst : Piece.first c text = (piece, rest))
    (hText : piece.raw ++ rest = c :: text) (hRaw : token.raw = piece.raw)
    (hToken : piece.token? (Position.start.after before) = some token)
    (hError : piece.error? (Position.start.after before) = none)
    (h : HasSites (before ++ piece.raw) rest) :
    HasSites before (c :: text) := by
  obtain ⟨sites, front, tail, hTokens, hLays, hSites, hTail, hEnding⟩ := h
  have hCut : Site.IsCut ⟨before, token, rest⟩ :=
    ⟨c, text, piece, hFirst, hRaw ▸ hText, hToken⟩
  rw [List.append_assoc, hText] at hLays hTail
  refine ⟨⟨before, token, rest⟩ :: sites, front, tail, ?_, ?_,
    List.forall_mem_cons.2 ⟨hCut, hSites⟩, hTail, ?_⟩
  · rw [tokensBehind_cons hFirst, hToken, hTokens]
    rfl
  · refine .site isGap_nil ?_ hCut.raw_ne_nil ?_ ?_
    · exact (List.append_nil before).symm
    · rw [Site.upTo, hRaw, List.append_assoc, hText]
    · rw [Site.upTo, hRaw]
      exact hLays
  · rw [errorsBehind_cons hFirst, hError]
    exact hEnding

/-- What is not closed, or nothing at all, has no sites. -/
theorem HasSites.ending (hTokens : tokensBehind before text = [])
    (hEnding : Ending before text (errorsBehind before text)) :
    HasSites before text := by
  refine ⟨[], before, text, hTokens, ?_, List.forall_mem_nil _, rfl,
    hEnding⟩
  refine .done isGap_nil ?_
  rw [List.append_nil]

/-- What is not closed ends the text. -/
theorem HasSites.unclosed (hFirst : Piece.first c text = (piece, []))
    (hToken : piece.token? (Position.start.after before) = none)
    (hEnding : Ending before (c :: text)
      (piece.error? (Position.start.after before)).toList) :
    HasSites before (c :: text) := by
  refine .ending ?_ ?_
  · rw [tokensBehind_cons hFirst, hToken, tokensBehind_nil]
    rfl
  · rw [errorsBehind_cons hFirst, errorsBehind_nil, List.append_nil]
    exact hEnding

/-- What the first piece of a text adds: white space goes to a gap, a
token has its site, and what is not closed ends the text. -/
theorem hasSites_cons (hFirst : Piece.first c text = (piece, rest))
    (h : HasSites (before ++ piece.raw) rest) :
    HasSites before (c :: text) := by
  have hText := Piece.raw_first_append c text
  have hPiece := Piece.wellCut_first c text
  rw [hFirst] at hText hPiece
  cases piece with
  | blank d =>
      obtain ⟨rfl, -⟩ := List.cons.inj hText
      exact .blank hFirst hPiece hText.symm h
  | token kind lexeme =>
      exact .token hFirst hText (raw_of_ne hPiece.1) rfl rfl h
  | quoted lexeme =>
      exact .token hFirst hText (raw_quoted _ lexeme) rfl rfl h
  | openString body =>
      obtain ⟨hBody, rfl⟩ := hPiece
      rw [List.append_nil] at hText
      refine .unclosed hFirst rfl ?_
      show Ending before _ [⟨.openString,
        ((Position.start.after before).next '"').after body⟩]
      rw [← hText, ← Position.after_cons, ← Position.after_append]
      exact .openString ⟨body, rfl, hBody⟩
  | openComment body =>
      obtain ⟨hBody, rfl⟩ := hPiece
      rw [List.append_nil] at hText
      refine .unclosed hFirst rfl ?_
      rw [← hText]
      exact .openComment ⟨body, rfl, hBody⟩

end Cons

/-- Every text has sites for its tokens, whatever it stands behind. -/
theorem hasSites (before text : List Char) : HasSites before text := by
  match text with
  | [] =>
      refine .ending (tokensBehind_nil before) ?_
      rw [errorsBehind_nil]
      exact .clean
  | c :: text => exact hasSites_cons rfl (hasSites _ (Piece.first c text).2)
termination_by text.length
decreasing_by exact Piece.length_first_lt c text

/-- The tokens of a source have their sites in it, and what is not closed
stands at its end. -/
theorem exists_sites (source : String) :
    ∃ (sites : List Site) (front tail : List Char),
      (scan source).tokens = sites.map Site.token ++
        [.atEnd (Position.start.after source.toList)] ∧
      Lays source.toList [] sites tail ∧ (∀ site ∈ sites, site.IsCut) ∧
      source.toList = front ++ tail ∧
      Ending front tail (scan source).errors := by
  obtain ⟨sites, front, tail, hTokens, hLays, hSites, hTail, hEnding⟩ :=
    hasSites [] source.toList
  refine ⟨sites, front, tail, ?_, hLays, hSites, hTail, hEnding⟩
  rw [tokens_scan]
  exact congrArg (· ++ _) hTokens

end ImpFront.Source
