import ImpFront.Token

/-!
# What can be wrong with a sequence of tokens

Every fault is something that had to come next and did not, or a constant
that cannot be read. It is about one token: the one found where another
was needed, which may be the end of the input, or the constant.

The rules of the grammar see no token for the end of the input; a fault
there has found none, and receives it when the fault becomes an error.
-/

namespace ImpFront

/-- What was wanted, and where, when a rule of the grammar failed. -/
inductive SyntaxFault
  | declarationName
  | anotherDeclarationName
  | declarationEnd
  | expressionEnd
  | assignmentName
  | assignmentOperator
  | assignmentEnd
  | readOpening
  | readName
  | readClosing
  | readEnd
  | writeOpening
  | writeClosing
  | writeEnd
  | ifOpening
  | ifClosing
  | ifThen
  | whileOpening
  | whileClosing
  | blockClosing
  | groupClosing
  | operand
  | integerTooLarge
  | realUnreadable
deriving DecidableEq, Repr

/-- The wording of a fault. -/
def SyntaxFault.message : SyntaxFault → String
  | declarationName => "Se esperaba un identificador en la declaración."
  | anotherDeclarationName => "Se esperaba un identificador después de ','."
  | declarationEnd =>
    "Se esperaba ';' al final de la declaración de variables."
  | expressionEnd => "Se esperaba ';' después de la expresión."
  | assignmentName => "Se esperaba identificador en la asignación."
  | assignmentOperator =>
    "Se esperaba un operador de asignación después del identificador."
  | assignmentEnd => "Se esperaba ';' después de la asignación."
  | readOpening => "Se esperaba '(' después de read."
  | readName => "Se esperaba un identificador dentro de read()."
  | readClosing => "Se esperaba ')' después de read(identifier)."
  | readEnd => "Se esperaba ';' después de read(...)."
  | writeOpening => "Se esperaba '(' después de write."
  | writeClosing => "Se esperaba ')' después de write(expression)."
  | writeEnd => "Se esperaba ';' después de write(...)."
  | ifOpening => "Se esperaba '(' después de if."
  | ifClosing => "Se esperaba ')' después de la condición del if."
  | ifThen => "Se esperaba 'then' después de if(...)."
  | whileOpening => "Se esperaba '(' después de while."
  | whileClosing => "Se esperaba ')' después de la condición del while."
  | blockClosing => "Se esperaba '\x7d' al final del bloque."
  | groupClosing => "Se esperaba ')' después de la expresión."
  | operand => "Se esperaba una expresión."
  | integerTooLarge => "Constante entera fuera de rango."
  | realUnreadable => "Constante real inválida."

/-- A fault and the token that it is about. -/
structure SyntaxError where
  fault : SyntaxFault
  token : Token
deriving DecidableEq, Repr

namespace Grammar

/-- A fault found by a rule, and what was found instead of what was
wanted: the token that the fault is about, with all that follow it. At the
end of the input nothing is found. -/
structure Failure where
  fault : SyntaxFault
  found : List Token
deriving DecidableEq, Repr

/-- The error that a failure is, given the token at the end of the
input. -/
def Failure.toError (finish : Token) (failure : Failure) : SyntaxError :=
  ⟨failure.fault, failure.found.head?.getD finish⟩

end Grammar

end ImpFront
