import ImpFront.Number.Shortest
import ImpFront.NumType

/-!
# Literal values

The values that constants denote: whole numbers, double-precision
numbers, texts, truth values, and `nil`, which no source text can write.
-/

namespace ImpFront

open Number (Binary64)

/-- A value that an expression can name. -/
inductive Literal
  | integer (value : Int)
  | real (value : Binary64)
  | string (value : String)
  | boolean (value : Bool)
  | nil
deriving DecidableEq

namespace Literal

/-- Numbers from a ten-thousandth up to ten to the sixteenth are written
without an exponent. -/
def realLayout : Number.DecimalLayout := ⟨-4, 15⟩

/-- The text of a value. Texts stand without quotes, and a real always
shows that it is none of the whole numbers. -/
def text : Literal → String
  | integer n => toString n
  | real x => x.write realLayout
  | string s => s
  | boolean true => "true"
  | boolean false => "false"
  | nil => "null"

/-- Equality of values, with reals compared as numbers. -/
def agrees : Literal → Literal → Bool
  | real x, real y => x.numEq y
  | real _, _ => false
  | _, real _ => false
  | a, b => a = b

/-- The type of the values that have one. Texts, truth values and `nil`
have none: no variable can hold them. -/
def type? : Literal → Option NumType
  | integer _ => some .long
  | real _ => some .double
  | _ => none

end Literal

end ImpFront
