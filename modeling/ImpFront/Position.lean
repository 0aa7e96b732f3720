/-!
# Positions in a source text

A position is a line and a column, both counted from one. A newline ends
its line; every other character, a tab or a combining accent included,
takes one column.

## Main results

* `after_append` — positions can be threaded piece by piece.
-/

namespace ImpFront

/-- A place in a source text. -/
structure Position where
  line : Nat
  column : Nat
deriving DecidableEq, Repr

namespace Position

/-- Where every text begins. -/
def start : Position := ⟨1, 1⟩

/-- The position just behind the character `c` standing at `pos`. -/
def next (pos : Position) (c : Char) : Position :=
  if c = '\n' then ⟨pos.line + 1, 1⟩ else ⟨pos.line, pos.column + 1⟩

/-- The position just behind a text that begins at `pos`. -/
def after (pos : Position) (text : List Char) : Position :=
  text.foldl next pos

@[simp] theorem after_nil (pos : Position) : pos.after [] = pos := rfl

@[simp] theorem after_cons (pos : Position) (c : Char) (text : List Char) :
    pos.after (c :: text) = (pos.next c).after text := rfl

theorem after_append (pos : Position) (first second : List Char) :
    pos.after (first ++ second) = (pos.after first).after second :=
  List.foldl_append

end Position

end ImpFront
