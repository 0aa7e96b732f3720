import ImpFront.Position
import ImpFront.Token.Kind

/-!
# Tokens

A token is a kind, the text it was made from, and where that text stands.
A token never interprets its text: whether the digits of a constant can be
read is decided where the constant is used.
-/

namespace ImpFront

/-- A smallest meaningful unit of a source text. -/
structure Token where
  kind : Token.Kind
  lexeme : String
  position : Position
deriving DecidableEq, Repr

namespace Token

/-- The token that stands behind all others: it has no text. -/
def atEnd (position : Position) : Token := ⟨.endOfInput, "", position⟩

/-- The line on which the token is reported. -/
def line (token : Token) : Nat := token.position.line

/-- The column in which the token is reported. -/
def column (token : Token) : Nat := token.position.column

/-- One line about the token, as listings show it. -/
def describe (token : Token) : String :=
  s!"[{token.kind.name}] '{token.lexeme}' " ++
    s!"(línea {token.line}, columna {token.column})"

end Token

end ImpFront
