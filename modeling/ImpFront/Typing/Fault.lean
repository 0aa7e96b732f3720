import ImpFront.NumType

/-!
# What can be wrong with the meaning of a program

A variable can be declared twice or not at all, and two types can meet
that are not the same. These faults name what they are about and the line
on which it stands.
-/

namespace ImpFront

/-- A fault in the use of variables and types. -/
inductive SemanticFault
  | redeclared (name : String)
  /-- Assigned to without a declaration. -/
  | undeclared (name : String)
  /-- Read into without a declaration. -/
  | undeclaredRead (name : String)
  /-- Used in an expression without a declaration. -/
  | usedUndeclared (name : String)
  | incompatibleAssignment (target value : NumType)
  | incompatibleOperation (operator : String) (left right : NumType)
deriving DecidableEq, Repr

/-- The wording of a fault. -/
def SemanticFault.message : SemanticFault → String
  | redeclared name => s!"Variable '{name}' redeclarada."
  | undeclared name => s!"Variable '{name}' no declarada."
  | undeclaredRead name =>
    s!"Variable '{name}' no declarada antes del read."
  | usedUndeclared name => s!"Variable '{name}' usada sin declarar."
  | incompatibleAssignment target value =>
    s!"Asignación incompatible: {target.name} = {value.name}"
  | incompatibleOperation operator left right =>
    s!"Operación incompatible: {left.name} {operator} {right.name}"

/-- A fault and the line that it is on. -/
structure SemanticError where
  line : Nat
  fault : SemanticFault
deriving DecidableEq, Repr

end ImpFront
