import ImpFront.Source.Scan
import ImpFront.Grammar.Fault
import ImpFront.Typing.Fault

/-!
# Diagnostics

Errors of all phases, brought into one form for whoever prints them: the
phase, the place, the wording of the fault, and a full line of text. Faults
in the use of types are known by their line alone.
-/

namespace ImpFront

/-- The phases of checking a text, in their order. -/
inductive Phase
  | lexical
  | syntactic
  | semantic
deriving DecidableEq, Repr

/-- The name of a phase in reports. -/
def Phase.name : Phase → String
  | lexical => "lexical"
  | syntactic => "syntax"
  | semantic => "semantic"

/-- An error as it is reported. -/
structure Diagnostic where
  phase : Phase
  line : Nat
  column? : Option Nat
  message : String
  /-- The full line of text about the error. -/
  rendered : String
deriving DecidableEq, Repr

namespace Diagnostic

/-- The report of a text that cannot be cut into tokens. -/
def lexical (position : Position) (message : String) : Diagnostic :=
  { phase := .lexical
    line := position.line
    column? := some position.column
    message
    rendered :=
      s!"Error léxico [línea {position.line}, columna {position.column}]: " ++
        message }

/-- The report of a token that the grammar has no place for. -/
def syntactic (position : Position) (message lexeme : String) : Diagnostic :=
  { phase := .syntactic
    line := position.line
    column? := some position.column
    message
    rendered :=
      s!"Error sintáctico [línea {position.line}, col {position.column}]: " ++
        s!"{message} (token: '{lexeme}')" }

/-- The report of a fault in the use of variables and types. -/
def semantic (line : Nat) (message : String) : Diagnostic :=
  { phase := .semantic
    line
    column? := none
    message
    rendered := s!"Semantic Error (line {line}): {message}" }

end Diagnostic

/-- The error as it is reported. -/
def LexicalError.diagnostic (error : LexicalError) : Diagnostic :=
  .lexical error.position error.fault.message

/-- The error as it is reported. -/
def SyntaxError.diagnostic (error : SyntaxError) : Diagnostic :=
  .syntactic error.token.position error.fault.message error.token.lexeme

/-- The error as it is reported. -/
def SemanticError.diagnostic (error : SemanticError) : Diagnostic :=
  .semantic error.line error.fault.message

end ImpFront
