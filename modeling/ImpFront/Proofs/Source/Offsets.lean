import Mathlib.Data.List.Induction
import ImpFront.Proofs.Source.Sites

/-!
# Positions and offsets

The scan counts lines and columns as it goes. What it ends up with is a
property of the offset alone: one line more than there are newlines in
front of it, and one column more than there are characters since the last
of them. `Position.ofOffset` says so without counting along.

A token is reported at the offset where it begins, a string constant at
its last character. Either way the offset lies inside of the token, so the
offsets of a text grow from token to token, and positions grow with them.

## Main results

* `ofOffset_eq` — counting along leads to the position of the offset.
* `before_ofOffset` — a larger offset has a later position.
* `scan_positions` — where the tokens and the errors of a source are
  reported.
-/

namespace ImpFront

namespace Position

/-- The position of the character at an offset: its line is one more than
the newlines in front of it, and its column one more than the characters
between the last of these, or the start, and itself. -/
def ofOffset (text : List Char) (offset : Nat) : Position :=
  { line := 1 + (text.take offset).count '\n'
    column :=
      1 + ((text.take offset).reverse.takeWhile (· != '\n')).length }

/-- The order in which positions come in a text. -/
def Before (a b : Position) : Prop :=
  a.line < b.line ∨ a.line = b.line ∧ a.column < b.column

theorem Before.trans {a b c : Position} (hFirst : a.Before b)
    (hSecond : b.Before c) : a.Before c := by
  unfold Before at *
  omega

/-- Counting along a text leads to the position of its end. -/
theorem after_start (text : List Char) :
    start.after text =
      ⟨1 + text.count '\n',
        1 + (text.reverse.takeWhile (· != '\n')).length⟩ := by
  induction text using List.reverseRecOn with
  | nil => rfl
  | append_singleton text c ih =>
      rw [after_append, ih, after_cons, after_nil, next, List.reverse_concat]
      by_cases hNewline : c = '\n'
      · simp [hNewline, Nat.add_assoc]
      · simp [hNewline, Nat.add_comm]

/-- Counting along a text up to an offset leads to its position. -/
theorem ofOffset_eq (text : List Char) (offset : Nat) :
    ofOffset text offset = start.after (text.take offset) :=
  (after_start _).symm

example : ofOffset ['x', '\n', 'y', 'z'] 3 = ⟨2, 2⟩ := by decide

theorem ofOffset_append (front rest : List Char) :
    ofOffset (front ++ rest) front.length = start.after front := by
  rw [ofOffset_eq, List.take_left]

theorem ofOffset_length (text : List Char) :
    ofOffset text text.length = start.after text := by
  rw [ofOffset_eq, List.take_length]

theorem before_next (pos : Position) (c : Char) : pos.Before (pos.next c) := by
  rw [next]
  split
  · exact .inl (Nat.lt_succ_self _)
  · exact .inr ⟨rfl, Nat.lt_succ_self _⟩

theorem before_after {text : List Char} (hText : text ≠ []) (pos : Position) :
    pos.Before (pos.after text) := by
  induction text generalizing pos with
  | nil => exact absurd rfl hText
  | cons c text ih =>
      rw [after_cons]
      cases text with
      | nil => exact before_next pos c
      | cons d text =>
          have hRest := ih (List.cons_ne_nil d text) (pos.next c)
          exact (before_next pos c).trans hRest

/-- A larger offset has a later position. -/
theorem before_ofOffset {text : List Char} {i j : Nat} (hLt : i < j)
    (hLe : j ≤ text.length) : (ofOffset text i).Before (ofOffset text j) := by
  have hBetween : (text.drop i).take (j - i) ≠ [] := by
    intro hNil
    have hLen := congrArg List.length hNil
    simp only [List.length_take, List.length_drop, List.length_nil] at hLen
    omega
  have hTake : text.take j = text.take i ++ (text.drop i).take (j - i) := by
    rw [← List.take_add, Nat.add_sub_cancel' (Nat.le_of_lt hLt)]
  rw [ofOffset_eq, ofOffset_eq, hTake, after_append]
  exact before_after hBetween _

end Position

namespace Source

/-! ## Sites -/

namespace Site

/-- The offset at which the token is reported: that of its first character,
or for a string constant that of its last, which is the closing quote. -/
def offset (site : Site) : Nat :=
  if site.token.kind = .string then site.upTo.length - 1
  else site.before.length

variable {site : Site}

/-- A token is reported at one of its own characters. -/
theorem offset_bounds (hRaw : site.token.raw ≠ []) :
    site.before.length ≤ site.offset ∧ site.offset < site.upTo.length := by
  have hLen : 0 < site.token.raw.length := List.length_pos_iff.2 hRaw
  have hUpTo : site.upTo.length =
      site.before.length + site.token.raw.length := List.length_append
  rw [offset]
  split <;> omega

/-- The position of a token is that of its offset. -/
theorem IsCut.position_eq (h : site.IsCut) :
    site.token.position =
      .ofOffset (site.upTo ++ site.behind) site.offset := by
  obtain ⟨c, text, piece, hFirst, -, hToken⟩ := h
  have hPiece := Piece.wellCut_first c text
  rw [hFirst] at hPiece
  cases piece with
  | token kind lexeme =>
      have hKind : site.token.kind ≠ .string := by
        rw [← Option.some.inj hToken]
        exact hPiece.1
      rw [offset, if_neg hKind, upTo, List.append_assoc,
        Position.ofOffset_append, ← Option.some.inj hToken]
  | quoted lexeme =>
      have hRaw : site.token.raw = '"' :: lexeme ++ ['"'] := by
        rw [← Option.some.inj hToken]
        exact raw_quoted _ lexeme
      have hKind : site.token.kind = .string := by
        rw [← Option.some.inj hToken]
      have hUpTo : site.upTo = (site.before ++ '"' :: lexeme) ++ ['"'] := by
        rw [upTo, hRaw, List.append_assoc]
      have hLen : site.upTo.length - 1 =
          (site.before ++ '"' :: lexeme).length := by
        rw [hUpTo, List.length_append, List.length_singleton,
          Nat.add_sub_cancel]
      rw [offset, if_pos hKind, hLen, hUpTo, List.append_assoc,
        Position.ofOffset_append, Position.after_append,
        ← Option.some.inj hToken]
      rfl
  | blank | openString | openComment => cases hToken

end Site

section Lays

variable {source before tail : List Char} {sites : List Site}

theorem Lays.text_eq (h : Lays source before sites tail) :
    ∀ site ∈ sites, source = site.upTo ++ site.behind := by
  induction h with
  | done => exact List.forall_mem_nil _
  | site _ _ _ hText _ ih => exact List.forall_mem_cons.2 ⟨hText, ih⟩

/-- The tokens behind `before` are reported behind it and inside of the
source. -/
theorem Lays.offset_bounds (h : Lays source before sites tail) :
    ∀ site ∈ sites,
      before.length ≤ site.offset ∧ site.offset < source.length := by
  induction h with
  | done => exact List.forall_mem_nil _
  | @site before gap tail site sites hGap hBefore hRaw hText hRest ih =>
      obtain ⟨hLow, hHigh⟩ := site.offset_bounds hRaw
      have hSource : site.upTo.length ≤ source.length := by
        rw [hText, List.length_append]
        exact Nat.le_add_right _ _
      rw [hBefore, List.length_append] at hLow
      refine List.forall_mem_cons.2 ⟨⟨?_, ?_⟩, ?_⟩
      · omega
      · omega
      · intro later hMem
        obtain ⟨hBehind, hInside⟩ := ih later hMem
        exact ⟨by omega, hInside⟩

/-- Offsets grow from token to token. -/
theorem Lays.pairwise_offset (h : Lays source before sites tail) :
    sites.Pairwise fun first second => first.offset < second.offset := by
  induction h with
  | done => exact .nil
  | @site before gap tail site sites hGap hBefore hRaw hText hRest ih =>
      refine .cons ?_ ih
      intro later hMem
      have hEnd := (site.offset_bounds hRaw).2
      exact Nat.lt_of_lt_of_le hEnd (hRest.offset_bounds later hMem).1

/-- Positions of offsets grow from token to token, and that of the end of
the source comes behind them all. -/
theorem Lays.pairwise_before (h : Lays source before sites tail) :
    (sites.map (fun site : Site => Position.ofOffset source site.offset) ++
      [Position.ofOffset source source.length]).Pairwise
        Position.Before := by
  have hInside := h.offset_bounds
  refine List.pairwise_append.2 ⟨?_, List.pairwise_singleton _ _, ?_⟩
  · refine List.pairwise_map.2 (h.pairwise_offset.imp_of_mem ?_)
    intro first second _ hSecond hLt
    exact Position.before_ofOffset hLt (Nat.le_of_lt (hInside _ hSecond).2)
  · intro pos hPos finish hFinish
    obtain ⟨site, hMem, rfl⟩ := List.mem_map.1 hPos
    obtain rfl := List.mem_singleton.1 hFinish
    exact Position.before_ofOffset (hInside _ hMem).2 (Nat.le_refl _)

end Lays

/-! ## The tokens and the errors of a source -/

section Ending

variable {front tail : List Char} {errors : List LexicalError}

theorem Ending.isTail (h : Ending front tail errors) : IsTail tail errors := by
  cases h with
  | clean => exact .inl ⟨rfl, rfl⟩
  | openString h => exact .inr ⟨_, rfl, .inl ⟨h, rfl⟩⟩
  | openComment h => exact .inr ⟨_, rfl, .inr ⟨h, rfl⟩⟩

/-- The offset at which a fault is reported that is in the text behind
`front`: for a string the end of the text, for a comment its opening
sign. -/
def faultOffset (front tail : List Char) : LexicalFault → Nat
  | .openString => (front ++ tail).length
  | .openComment => front.length

theorem Ending.position_eq (h : Ending front tail errors) :
    ∀ error ∈ errors, error.position =
      .ofOffset (front ++ tail) (faultOffset front tail error.fault) := by
  cases h with
  | clean => exact List.forall_mem_nil _
  | openString h =>
      refine List.forall_mem_singleton.2 ?_
      exact (Position.ofOffset_length _).symm
  | openComment h =>
      refine List.forall_mem_singleton.2 ?_
      exact (Position.ofOffset_append front tail).symm

end Ending

/-- **Positions are exact.** A token is reported at the line and column of
its first character, a string constant at those of its closing quote, the
end of the input and a string that is not closed at those of the end of the
text, and a comment that is not closed at those of its opening sign. So the
positions grow strictly from token to token. -/
theorem scan_positions (source : String) :
    ∃ (sites : List Site) (front tail : List Char),
      (scan source).tokens = sites.map Site.token ++
        [.atEnd (.ofOffset source.toList source.toList.length)] ∧
      Lays source.toList [] sites tail ∧
      (∀ site ∈ sites,
        site.token.position = .ofOffset source.toList site.offset) ∧
      source.toList = front ++ tail ∧ IsTail tail (scan source).errors ∧
      (∀ error ∈ (scan source).errors, error.position =
        .ofOffset source.toList (faultOffset front tail error.fault)) ∧
      ((scan source).tokens.map Token.position).Pairwise
        Position.Before := by
  obtain ⟨sites, front, tail, hTokens, hLays, hCut, hText, hEnding⟩ :=
    exists_sites source
  have hPositions : ∀ site ∈ sites,
      site.token.position = .ofOffset source.toList site.offset := by
    intro site hMem
    rw [(hCut site hMem).position_eq, hLays.text_eq site hMem]
  rw [← Position.ofOffset_length] at hTokens
  refine ⟨sites, front, tail, hTokens, hLays, hPositions, hText,
    hEnding.isTail, hText ▸ hEnding.position_eq, ?_⟩
  have hMap : sites.map (Token.position ∘ Site.token) = _ :=
    List.map_congr_left hPositions
  rw [hTokens, List.map_append, List.map_map, hMap]
  exact hLays.pairwise_before

end Source

end ImpFront
