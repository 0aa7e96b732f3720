import Mathlib.Data.List.DropRight
import ImpFront.Text.Line
import ImpFront.Proofs.Source.Determined
import ImpFront.Proofs.Source.Offsets

/-!
# Lines, and where an offset is in them

The lines of a text follow from its newlines alone: `lines` splits it at
them and mends the parts. `line?`, which looks for one line at a time and
splits nothing, finds the same lines.

The position of an offset comes from counting, and knows nothing of lines;
in particular it counts the carriage returns that belong to no line. Still
it leads to the right place among the lines, as long as the character at
the offset is part of a line: to this very character, or behind the last
character if the offset is the end of the text. The line is missing only at
the end of a text that ends with a newline.

## Main results

* `line?_eq` — a line that is looked for is one of the lines.
* `getElem?_lines` — the line in which a part of the text stops.
* `inLines_char`, `inLines_end` — where the positions of characters and of the
  end of the text are among the lines.
-/

namespace ImpFront

namespace Text

open Source (NotNext notNext_cons bne_of_not_mem takeWhile_append_of_notNext
  dropWhile_append_of_notNext)

/-! ## All lines of a text -/

/-- The lines of a text. It is split at its newlines: each part that a
newline ends is a line but for the carriage return at its end, and what
stands behind the last newline is a line if anything does. -/
def lines (text : List Char) : List (List Char) :=
  let parts := text.splitOn '\n'
  parts.dropLast.map withoutReturn ++ parts.getLast?.toList.filter (· ≠ [])

example : lines ['a', '\r', '\n', '\n', 'b', '\r'] =
    [['a'], [], ['b', '\r']] := by decide

variable {text front : List Char}

theorem lines_of_not_mem (h : '\n' ∉ text) :
    lines text = [text].filter (· ≠ []) := by
  rw [lines, List.splitOn_eq_singleton h]
  rfl

theorem length_splitOn (text : List Char) :
    (text.splitOn '\n').length = text.count '\n' + 1 := by
  rw [List.splitOn_eq_splitOnP]
  induction text with
  | nil => rfl
  | cons c text ih =>
      rw [List.splitOnP_cons_eq_if_modifyHead, List.count_cons]
      split
      · rw [List.length_cons, ih]
      · rw [List.length_modifyHead, ih, Nat.add_zero]

/-- A newline ends a line, whatever follows it. -/
theorem lines_append (front rest : List Char) :
    lines (front ++ '\n' :: rest) =
      (front.splitOn '\n').map withoutReturn ++ lines rest := by
  have hRest := List.splitOnP_ne_nil (· == '\n') rest
  have hSplit := List.splitOnP_append_cons (p := (· == '\n')) front rest
    (beq_self_eq_true '\n')
  simp only [lines, List.splitOn_eq_splitOnP]
  rw [hSplit, List.dropLast_append_of_ne_nil hRest, List.map_append,
    List.getLast?_append_of_ne_nil _ hRest, List.append_assoc]

theorem length_lines_append_newline (front : List Char) :
    (lines (front ++ ['\n'])).length = (front ++ ['\n']).count '\n' := by
  rw [lines_append, List.length_append, List.length_map, length_splitOn,
    List.count_append]
  rfl

theorem lines_append_of_not_mem (h : '\n' ∉ front) (rest : List Char) :
    lines (front ++ '\n' :: rest) = withoutReturn front :: lines rest := by
  rw [lines_append, List.splitOn_eq_singleton h]
  rfl

/-- A text is one part, or a part that a newline ends and whatever comes
behind it. -/
theorem not_mem_or_eq_append (text : List Char) :
    '\n' ∉ text ∨
      ∃ front rest, text = front ++ '\n' :: rest ∧ '\n' ∉ front := by
  by_cases hNewline : '\n' ∈ text
  · exact .inr (List.eq_append_cons_of_mem hNewline)
  · exact .inl hNewline

/-! ## Looking for a line -/

theorem notNext_newline (rest : List Char) :
    NotNext (· != '\n') ('\n' :: rest) :=
  notNext_cons rfl rest

theorem line?_zero (h : text ≠ []) :
    line? 0 text = some
      (if (text.takeWhile (· != '\n')).length < text.length
        then withoutReturn (text.takeWhile (· != '\n'))
        else text.takeWhile (· != '\n')) := by
  obtain ⟨c, rest, rfl⟩ := List.exists_cons_of_ne_nil h
  rw [line?]
  split <;> rfl

theorem line?_of_not_mem (h : '\n' ∉ text) (index : Nat) :
    line? index text = (lines text)[index]? := by
  have hAll := bne_of_not_mem h
  rw [lines_of_not_mem h]
  cases index with
  | zero =>
      by_cases hText : text = []
      · rw [hText]
        rfl
      · rw [line?_zero hText, List.takeWhile_eq_self_iff.2 hAll,
          if_neg (Nat.lt_irrefl _)]
        simp [hText]
  | succ index =>
      rw [line?, List.dropWhile_eq_nil_iff.2 hAll]
      by_cases hText : text = [] <;> simp [hText]

/-- A line that is looked for is one of the lines. -/
theorem line?_eq (index : Nat) (text : List Char) :
    line? index text = (lines text)[index]? := by
  induction index generalizing text with
  | zero =>
      rcases not_mem_or_eq_append text with hNone | ⟨front, rest, rfl, hFront⟩
      · exact line?_of_not_mem hNone 0
      · have hTake := takeWhile_append_of_notNext (bne_of_not_mem hFront)
          (notNext_newline rest)
        rw [line?_zero (by simp), hTake, lines_append_of_not_mem hFront,
          if_pos (by simp)]
        rfl
  | succ index ih =>
      rcases not_mem_or_eq_append text with hNone | ⟨front, rest, rfl, hFront⟩
      · exact line?_of_not_mem hNone (index + 1)
      · have hDrop := dropWhile_append_of_notNext (bne_of_not_mem hFront)
          (notNext_newline rest)
        rw [line?, hDrop, lines_append_of_not_mem hFront,
          List.getElem?_cons_succ]
        exact ih rest

/-! ## The line of an offset -/

/-- What has been written of the last line when a text stops. -/
def begun (front : List Char) : List Char := front.rtakeWhile (· != '\n')

theorem newline_not_mem_begun (front : List Char) : '\n' ∉ begun front := by
  intro hMem
  have hNot := List.mem_rtakeWhile_imp hMem
  simp at hNot

/-- The text behind a part of a text goes on with the line that the part
stopped in, and this line has as many lines before it as the part has
newlines. -/
theorem getElem?_lines (front rest : List Char) :
    (lines (front ++ rest))[front.count '\n']? =
      (lines (begun front ++ rest))[0]? := by
  induction front using List.reverseRecOn generalizing rest with
  | nil => rfl
  | append_singleton front c ih =>
      rw [begun, List.rtakeWhile_concat, List.count_append, List.append_assoc,
        List.singleton_append]
      by_cases hNewline : c = '\n'
      · have hLength : front.count '\n' + ['\n'].count '\n' =
            ((front.splitOn '\n').map withoutReturn).length := by
          rw [List.length_map, length_splitOn]
          rfl
        rw [hNewline, if_neg (by simp), lines_append, hLength,
          List.getElem?_append_right (Nat.le_refl _), Nat.sub_self]
        rfl
      · have hCount : [c].count '\n' = 0 :=
          List.count_eq_zero.2 (by simpa using Ne.symm hNewline)
        rw [hCount, Nat.add_zero, if_pos (by simpa using hNewline), ih,
          List.append_assoc]
        rfl

/-- A character other than those that end a line is in the line that has
begun, right behind what has been written of it. -/
theorem exists_line_of_char {c : Char} (hBegun : '\n' ∉ front)
    (hNewline : c ≠ '\n') (hReturn : c ≠ '\r') (rest : List Char) :
    ∃ more, (lines (front ++ c :: rest))[0]? = some (front ++ c :: more) := by
  rcases not_mem_or_eq_append rest with hRest | ⟨first, others, rfl, hFirst⟩
  · refine ⟨rest, ?_⟩
    rw [lines_of_not_mem (by simp [hBegun, hNewline.symm, hRest])]
    simp
  · have hLine : '\n' ∉ front ++ c :: first := by
      simp [hBegun, hNewline.symm, hFirst]
    have hText : front ++ c :: (first ++ '\n' :: others) =
        (front ++ c :: first) ++ '\n' :: others := by
      simp
    rw [hText, lines_append_of_not_mem hLine, List.getElem?_cons_zero,
      withoutReturn]
    split
    · next hLast =>
      -- The character itself is no carriage return, so one follows it.
      cases first with
      | nil =>
          rw [List.getLast?_concat] at hLast
          exact absurd (Option.some.inj hLast) hReturn
      | cons d first =>
          refine ⟨(d :: first).dropLast, ?_⟩
          rw [List.dropLast_append_of_ne_nil (List.cons_ne_nil c _),
            List.dropLast_cons_of_ne_nil (List.cons_ne_nil d first)]
    · exact ⟨first, rfl⟩

end Text

/-! ## Positions among the lines -/

namespace Position

/-- Where the position of an offset is among the lines of a text: in one of
them, at the character of the offset or behind the last character of the
line, or in front of the line that would come next, behind a newline. The
latter two are only at the end of the text. -/
inductive InLines (text : List Char) (offset : Nat) : Position → Prop
  | within {index column : Nat} {row : List Char}
      (hRow : (Text.lines text)[index]? = some row)
      (hColumn : column ≤ row.length)
      (hChar : row[column]? = text[offset]?) :
      InLines text offset ⟨index + 1, column + 1⟩
  | behind (hOffset : offset = text.length)
      (hNewline : text.getLast? = some '\n') :
      InLines text offset ⟨(Text.lines text).length + 1, 1⟩

/-- The position of a character is on a line that is there. -/
theorem InLines.line_bounds {text : List Char} {offset : Nat} {pos : Position}
    (h : pos.InLines text offset) (hInside : offset < text.length) :
    1 ≤ pos.line ∧ pos.line ≤ (Text.lines text).length := by
  cases h with
  | within hRow =>
      obtain ⟨hIndex, -⟩ := List.getElem?_eq_some_iff.1 hRow
      exact ⟨Nat.succ_pos _, hIndex⟩
  | behind hOffset => exact absurd hOffset (Nat.ne_of_lt hInside)

theorem after_start_eq (front : List Char) :
    start.after front =
      ⟨front.count '\n' + 1, (Text.begun front).length + 1⟩ := by
  rw [after_start, Text.begun, List.rtakeWhile, List.length_reverse,
    Nat.add_comm 1, Nat.add_comm 1]

/-- A character that can be part of a line is in the line of its position
and at the column. -/
theorem inLines_char {c : Char} (hNewline : c ≠ '\n') (hReturn : c ≠ '\r')
    (front rest : List Char) :
    (start.after front).InLines (front ++ c :: rest) front.length := by
  obtain ⟨more, hLine⟩ := Text.exists_line_of_char
    (Text.newline_not_mem_begun front) hNewline hReturn rest
  rw [← Text.getElem?_lines] at hLine
  rw [after_start_eq]
  refine .within hLine ?_ ?_
  · rw [List.length_append]
    exact Nat.le_add_right _ _
  · rw [List.getElem?_append_right (Nat.le_refl _),
      List.getElem?_append_right (Nat.le_refl _), Nat.sub_self, Nat.sub_self,
      List.getElem?_cons_zero, List.getElem?_cons_zero]

/-- The end of a text is behind the last character of its last line, or
behind its last newline. -/
theorem inLines_end {text : List Char} (hText : text ≠ []) :
    (start.after text).InLines text text.length := by
  have hLine := Text.getElem?_lines text []
  rw [List.append_nil, List.append_nil,
    Text.lines_of_not_mem (Text.newline_not_mem_begun text)] at hLine
  rw [after_start_eq]
  by_cases hBegun : Text.begun text = []
  · have hLast := List.rtakeWhile_eq_nil_iff.1 hBegun hText
    obtain ⟨front, c, rfl⟩ :=
      (List.eq_nil_or_concat' text).resolve_left hText
    obtain rfl : c = '\n' := by simpa using hLast
    rw [hBegun, ← Text.length_lines_append_newline]
    exact .behind rfl List.getLast?_concat
  · have hThere : (Text.lines text)[text.count '\n']? =
        some (Text.begun text) := by
      rw [hLine]
      simp [hBegun]
    refine .within hThere (Nat.le_refl _) ?_
    rw [List.getElem?_eq_none (Nat.le_refl _),
      List.getElem?_eq_none (Nat.le_refl _)]

end Position

end ImpFront
