import ImpFront.Token.Kind

/-!
# The types of variables

The language has two types, both numeric, and no conversion between them.
-/

namespace ImpFront

/-- The type of a variable. -/
inductive NumType
  | long
  | double
deriving DecidableEq, Repr

namespace NumType

/-- The word that declares variables of the type. -/
def name : NumType → String
  | long => "long"
  | double => "double"

/-- The type that a reserved word declares. -/
def ofKind? : Token.Kind → Option NumType
  | .long => some long
  | .double => some double
  | _ => none

end NumType

end ImpFront
