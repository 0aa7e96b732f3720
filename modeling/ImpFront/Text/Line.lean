/-!
# The lines of a text

Lines end at newlines. A carriage return directly before a newline belongs
to the end of the line, not to the line; one that no newline follows is an
ordinary character. Behind the last newline there is a line only if there
is any text.

## Main results

* `line?_isSome_iff` — the first line is there unless the text is empty.
-/

namespace ImpFront.Text

/-- A line without the carriage return that may end it. -/
def withoutReturn (line : List Char) : List Char :=
  if line.getLast? = some '\r' then line.dropLast else line

/-- The line of a text that `index` lines stand before. -/
def line? : (index : Nat) → List Char → Option (List Char)
  | 0, [] => none
  | 0, c :: text =>
    let line := (c :: text).takeWhile (· != '\n')
    if line.length < (c :: text).length then some (withoutReturn line)
    else some line
  | index + 1, text =>
    match text.dropWhile (· != '\n') with
    | [] => none
    | _ :: rest => line? index rest

theorem line?_isSome_iff (text : List Char) :
    (line? 0 text).isSome = true ↔ text ≠ [] := by
  cases text with
  | nil => simp [line?]
  | cons c text =>
    simp only [line?]
    split <;> simp

end ImpFront.Text
