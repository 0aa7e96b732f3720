import ImpFront.Text.WhiteSpace
import ImpFront.Text.Alphabetic
import ImpFront.Text.Numeric
import ImpFront.Token.Kind

/-!
# Cutting a text into pieces

A source text is cut, from left to right and without remainder, into
pieces: single white-space characters, the texts of tokens, and at most
one string or comment that the text ends before closing. `Piece.first`
cuts one piece off a text that is not empty; `cut` goes on to the end.
Positions play no part here: `ImpFront.Source.Scan` adds them.

The character in front, with the one behind it, decides which piece
follows, in this order: white space, a word, a number, a string, a
comment, and last the operators. Where two pieces could begin alike the
longer one is cut, so `<=` is one operator and `5.` one number.

## Main results

* `raw_first_append` — the first piece and the rest make up the text.
* `flatMap_raw_cut` — the pieces, written one after another, are the text.
-/

namespace ImpFront.Source

open Token (Kind)

/-- What a text begins with. -/
inductive Piece
  /-- One white-space character. -/
  | blank (c : Char)
  /-- A token other than a string constant, with its text. -/
  | token (kind : Kind) (text : List Char)
  /-- A string constant, with what stands between its quotes. -/
  | quoted (text : List Char)
  /-- A quote that no second one closes, with all that follows. -/
  | openString (text : List Char)
  /-- A comment sign that nothing closes, with all that follows. -/
  | openComment (text : List Char)
deriving DecidableEq, Repr

namespace Piece

/-- The characters that a piece was cut from. -/
def raw : Piece → List Char
  | blank c => [c]
  | token _ text => text
  | quoted text => '"' :: text ++ ['"']
  | openString text => '"' :: text
  | openComment text => '/' :: '*' :: text

/-- Can an identifier or a reserved word begin with `c`? -/
def beginsWord (c : Char) : Bool := Text.isAlphabetic c || c = '_'

/-- Can an identifier or a reserved word go on with `c`? -/
def continuesWord (c : Char) : Bool :=
  Text.isAlphabetic c || Text.isNumeric c || c = '_'

/-- The kind of a word: identifiers are the words of no other kind. -/
def wordKind (text : List Char) : Kind :=
  (Kind.keyword? (String.ofList text)).getD .identifier

/-- A word reaches as far as its characters can continue one. -/
def word (c : Char) (text : List Char) : Piece × List Char :=
  let run := c :: text.takeWhile continuesWord
  (token (wordKind run) run, text.dropWhile continuesWord)

/-- Digits, and if a point follows them the point and the digits behind
it, which may be missing. -/
def number (c : Char) (text : List Char) : Piece × List Char :=
  let whole := c :: text.takeWhile Char.isDigit
  match text.dropWhile Char.isDigit with
  | '.' :: rest =>
    (token .real (whole ++ '.' :: rest.takeWhile Char.isDigit),
      rest.dropWhile Char.isDigit)
  | rest => (token .integer whole, rest)

/-- What follows an opening quote, up to the next quote. -/
def string (text : List Char) : Piece × List Char :=
  match text.dropWhile (· != '"') with
  | [] => (openString text, [])
  | _ :: rest => (quoted (text.takeWhile (· != '"')), rest)

/-- A comment to the end of the line, without the newline. -/
def lineComment (text : List Char) : Piece × List Char :=
  (token .lineComment ('/' :: '/' :: text.takeWhile (· != '\n')),
    text.dropWhile (· != '\n'))

/-- Split a text behind its first `*/`; `seen` holds, backwards, what has
been passed over. -/
def splitClosed? (seen : List Char) :
    List Char → Option (List Char × List Char)
  | '*' :: '/' :: rest => some ((('/' :: '*' :: seen).reverse), rest)
  | c :: rest => splitClosed? (c :: seen) rest
  | [] => none

/-- What follows a comment sign `/*`, up to the first `*/`. -/
def blockComment (text : List Char) : Piece × List Char :=
  match splitClosed? [] text with
  | some (body, rest) => (token .blockComment ('/' :: '*' :: body), rest)
  | none => (openComment text, [])

/-- One character that is an operator, a punctuation mark, or unknown. -/
def single (c : Char) : Piece :=
  token ((Kind.ofChar? c).getD .unknown) [c]

/-- An operator of two characters if there is one, else of one. -/
def symbol (c : Char) : List Char → Piece × List Char
  | [] => (single c, [])
  | d :: rest =>
    match Kind.ofPair? c d with
    | some kind => (token kind [c, d], rest)
    | none => (single c, d :: rest)

/-- Cut the first piece off the text `c :: text`. -/
def first (c : Char) (text : List Char) : Piece × List Char :=
  if Text.isWhiteSpace c then (blank c, text)
  else if beginsWord c then word c text
  else if c.isDigit then number c text
  else if c = '"' then string text
  else
    match c, text with
    | '/', '/' :: rest => lineComment rest
    | '/', '*' :: rest => blockComment rest
    | _, _ => symbol c text

/-! ### The first piece and the rest -/

theorem raw_word_append (c : Char) (text : List Char) :
    (word c text).1.raw ++ (word c text).2 = c :: text := by
  simp [word, raw, List.takeWhile_append_dropWhile]

theorem raw_number_append (c : Char) (text : List Char) :
    (number c text).1.raw ++ (number c text).2 = c :: text := by
  have hSplit := List.takeWhile_append_dropWhile (p := Char.isDigit) (l := text)
  unfold number
  split
  · next rest hRest =>
    rw [hRest] at hSplit
    simp [raw, List.takeWhile_append_dropWhile, hSplit]
  · simp [raw, hSplit]

theorem raw_string_append (text : List Char) :
    (string text).1.raw ++ (string text).2 = '"' :: text := by
  have hSplit := List.takeWhile_append_dropWhile (p := (· != '"')) (l := text)
  unfold string
  split
  · simp [raw]
  · next d rest hRest =>
    have hQuote : d = '"' := by
      have := List.head?_dropWhile_not (· != '"') text
      rw [hRest] at this
      simpa using this
    subst hQuote
    rw [hRest] at hSplit
    simp [raw, hSplit]

theorem raw_lineComment_append (text : List Char) :
    (lineComment text).1.raw ++ (lineComment text).2 = '/' :: '/' :: text := by
  simp [lineComment, raw, List.takeWhile_append_dropWhile]

theorem splitClosed?_append {seen text body rest : List Char}
    (h : splitClosed? seen text = some (body, rest)) :
    body ++ rest = seen.reverse ++ text := by
  fun_induction splitClosed? seen text with
  | case1 seen rest' =>
    obtain ⟨rfl, rfl⟩ : (_ ∧ _) := by simpa using h
    simp
  | case2 seen c text' _ ih => simp [ih h]
  | case3 => simp at h

theorem raw_blockComment_append (text : List Char) :
    (blockComment text).1.raw ++ (blockComment text).2 =
      '/' :: '*' :: text := by
  unfold blockComment
  split
  · next body rest h => simpa [raw] using splitClosed?_append h
  · simp [raw]

theorem raw_symbol_append (c : Char) (text : List Char) :
    (symbol c text).1.raw ++ (symbol c text).2 = c :: text := by
  unfold symbol
  split
  · rfl
  · split <;> rfl

/-- Nothing is lost and nothing added when a piece is cut off. -/
theorem raw_first_append (c : Char) (text : List Char) :
    (first c text).1.raw ++ (first c text).2 = c :: text := by
  unfold first
  split
  · rfl
  · split
    · exact raw_word_append c text
    · split
      · exact raw_number_append c text
      · split
        · next h => subst h; exact raw_string_append text
        · split
          · exact raw_lineComment_append _
          · exact raw_blockComment_append _
          · exact raw_symbol_append c text

/-- A piece is never empty. -/
theorem raw_first_ne_nil (c : Char) (text : List Char) :
    (first c text).1.raw ≠ [] := by
  unfold first word number string lineComment blockComment symbol single
  repeat' split
  all_goals simp [raw]

/-- What is left behind a piece is shorter than what it was cut from. -/
theorem length_first_lt (c : Char) (text : List Char) :
    (first c text).2.length < (c :: text).length := by
  have hLen := congrArg List.length (raw_first_append c text)
  have hPos := List.length_pos_iff.2 (raw_first_ne_nil c text)
  rw [List.length_append] at hLen
  omega

end Piece

/-! ### The whole text -/

/-- Cut a text to its end, onto the pieces `done`, the latest in front. -/
def cutOnto (done : List Piece) : List Char → List Piece
  | [] => done.reverse
  | c :: text =>
    cutOnto ((Piece.first c text).1 :: done) (Piece.first c text).2
termination_by text => text.length
decreasing_by exact Piece.length_first_lt c text

/-- The pieces of a text, in their order. -/
def cut (text : List Char) : List Piece := cutOnto [] text

theorem cutOnto_eq (done : List Piece) :
    (text : List Char) → cutOnto done text = done.reverse ++ cut text
  | [] => by simp [cut, cutOnto]
  | c :: text => by
    rw [cut, cutOnto, cutOnto, cutOnto_eq (_ :: done), cutOnto_eq [_]]
    simp
termination_by text => text.length
decreasing_by all_goals exact Piece.length_first_lt c text

@[simp] theorem cut_nil : cut [] = [] := by simp [cut, cutOnto]

/-- A text that is not empty is its first piece and the pieces of the
rest. -/
theorem cut_cons (c : Char) (text : List Char) :
    cut (c :: text) =
      (Piece.first c text).1 :: cut (Piece.first c text).2 := by
  rw [cut, cutOnto, cutOnto_eq]
  rfl

/-- The pieces, written one after another, are the text. -/
theorem flatMap_raw_cut : (text : List Char) →
    (cut text).flatMap Piece.raw = text
  | [] => by simp
  | c :: text => by
    rw [cut_cons, List.flatMap_cons, flatMap_raw_cut (Piece.first c text).2,
      Piece.raw_first_append]
termination_by text => text.length
decreasing_by exact Piece.length_first_lt c text

end ImpFront.Source
