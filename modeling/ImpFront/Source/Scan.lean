import ImpFront.Source.Piece
import ImpFront.Token

/-!
# From pieces to tokens

`scan` reads a source text as a list of tokens, comments included, that
ends with one token for the end of the input. The pieces of the text are
given their positions, and each becomes a token, an error, or nothing.

A token is reported where its text begins, with one exception: a string
constant is reported at its closing quote, and a string that is never
closed at the end of the text. A comment that is never closed is reported
at its opening sign.

## Main results

* `place_cons` — each piece begins where the one before it ends.
-/

namespace ImpFront

/-- What can be wrong with a text before any grammar is consulted. -/
inductive LexicalFault
  | openString
  | openComment
deriving DecidableEq, Repr

/-- The wording of a lexical fault. -/
def LexicalFault.message : LexicalFault → String
  | openString => "Cadena sin cierre de comillas"
  | openComment => "Comentario multilínea sin cierre"

/-- A lexical fault and where it is reported. -/
structure LexicalError where
  fault : LexicalFault
  position : Position
deriving DecidableEq, Repr

namespace Source

namespace Piece

/-- Where the text between quotes ends that begins with a quote at `pos`. -/
def endOfQuoted (pos : Position) (text : List Char) : Position :=
  (pos.next '"').after text

/-- The token that a piece at `pos` makes, if it makes one. -/
def token? (pos : Position) : Piece → Option Token
  | token kind text => some ⟨kind, String.ofList text, pos⟩
  | quoted text => some ⟨.string, String.ofList text, endOfQuoted pos text⟩
  | _ => none

/-- The error that a piece at `pos` is, if it is one. -/
def error? (pos : Position) : Piece → Option LexicalError
  | openString text => some ⟨.openString, endOfQuoted pos text⟩
  | openComment _ => some ⟨.openComment, pos⟩
  | _ => none

end Piece

/-- Give the pieces of a text that begins at `pos` their positions, behind
the placed pieces `done`, of which the latest is in front. -/
def placeOnto (done : List (Position × Piece)) (pos : Position) :
    List Piece → List (Position × Piece)
  | [] => done.reverse
  | piece :: pieces =>
    placeOnto ((pos, piece) :: done) (pos.after piece.raw) pieces

/-- The pieces of a text that begins at `pos`, each with its position. -/
def place (pos : Position) (pieces : List Piece) : List (Position × Piece) :=
  placeOnto [] pos pieces

theorem placeOnto_eq (done : List (Position × Piece)) (pos : Position)
    (pieces : List Piece) :
    placeOnto done pos pieces = done.reverse ++ place pos pieces := by
  induction pieces generalizing done pos with
  | nil => simp [place, placeOnto]
  | cons piece pieces ih =>
    rw [place, placeOnto, placeOnto, ih (_ :: done), ih [_]]
    simp

@[simp] theorem place_nil (pos : Position) : place pos [] = [] := rfl

/-- The first piece begins where the text does, the others where the first
one ends. -/
theorem place_cons (pos : Position) (piece : Piece) (pieces : List Piece) :
    place pos (piece :: pieces) =
      (pos, piece) :: place (pos.after piece.raw) pieces := by
  rw [place, placeOnto, placeOnto_eq]
  rfl

/-- A source text as tokens, and what was wrong with it. -/
structure Scan where
  /-- The tokens in their order, the end of the input last. -/
  tokens : List Token
  errors : List LexicalError
deriving DecidableEq, Repr

/-- Read a source text as tokens. -/
def scan (source : String) : Scan :=
  let text := source.toList
  let placed := place .start (cut text)
  { tokens :=
      placed.filterMap (fun (pos, piece) => piece.token? pos) ++
        [.atEnd (Position.start.after text)]
    errors := placed.filterMap fun (pos, piece) => piece.error? pos }

end Source

end ImpFront
