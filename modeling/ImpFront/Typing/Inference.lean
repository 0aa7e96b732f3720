import ImpFront.Expr
import ImpFront.SymbolTable
import ImpFront.Typing.Fault

/-!
# The types of expressions

An expression has the type of its leftmost operand, if every type in it is
known; texts, truth values and undeclared variables have none. Where two
types are known and differ they are reported, and where one is unknown
nothing is, so that one fault causes no others.

The operators of a chain are taken in a loop, the leftmost first. Right
operands can be looked at before it is their turn, because expressions
declare nothing.

## Main results

* `ofExpr_binary` — an operator combines what is known of its operands.
-/

namespace ImpFront

/-- The type of an expression if it is known, and the errors in it from
left to right. -/
structure Inference where
  type? : Option NumType
  errors : Array SemanticError
deriving DecidableEq, Repr

namespace Inference

/-- What an operator makes of what is known of its operands: the left type
if both are known, and one more error if they differ. -/
def combine (left : Inference) (operator : Token) (right : Inference) :
    Inference :=
  let errors := left.errors ++ right.errors
  match left.type?, right.type? with
  | some l, some r =>
    if l = r then ⟨some l, errors⟩
    else ⟨some l, errors.push
      ⟨operator.line, .incompatibleOperation operator.lexeme l r⟩⟩
  | _, _ => ⟨none, errors⟩

/-- What is known of a variable: its declared type. -/
def ofVar (table : SymbolTable) (name : Token) : Inference :=
  match table.typeOf? name.lexeme with
  | some type => ⟨some type, #[]⟩
  | none => ⟨none, #[⟨name.line, .usedUndeclared name.lexeme⟩]⟩

/-- What is known of a chain whose left operand is the expression given,
and in which the operators and right operands `pending` are still to
come. -/
def ofChain (table : SymbolTable) (pending : List (Token × Inference)) :
    Expr → Inference
  | .binary left operator right =>
    ofChain table ((operator, ofChain table [] right) :: pending) left
  | .unary _ operand => close (ofChain table [] operand)
  | .literal value => close ⟨value.type?, #[]⟩
  | .var name => close (ofVar table name)
  | .group inner => close (ofChain table [] inner)
where
  /-- The leftmost operand with all that is pending. -/
  close (leftmost : Inference) : Inference :=
    pending.foldl (fun left pair => left.combine pair.1 pair.2) leftmost

/-- What is known of an expression. -/
def ofExpr (table : SymbolTable) (expr : Expr) : Inference :=
  ofChain table [] expr

/-- What is pending is combined, in its order, with what is known of the
left operand. -/
theorem ofChain_eq (table : SymbolTable) (pending : List (Token × Inference))
    (expr : Expr) :
    ofChain table pending expr =
      pending.foldl (fun left pair => left.combine pair.1 pair.2)
        (ofExpr table expr) := by
  induction expr generalizing pending with
  | binary left operator right ih _ =>
    rw [ofExpr, ofChain, ofChain, ih, ih [_]]
    rfl
  | _ => rfl

theorem ofExpr_binary (table : SymbolTable) (left : Expr) (operator : Token)
    (right : Expr) :
    ofExpr table (.binary left operator right) =
      (ofExpr table left).combine operator (ofExpr table right) := by
  rw [ofExpr, ofChain, ofChain_eq]
  rfl

@[simp] theorem ofExpr_unary (table : SymbolTable) (operator : Token)
    (operand : Expr) :
    ofExpr table (.unary operator operand) = ofExpr table operand := rfl

@[simp] theorem ofExpr_literal (table : SymbolTable) (value : Literal) :
    ofExpr table (.literal value) = ⟨value.type?, #[]⟩ := rfl

@[simp] theorem ofExpr_var (table : SymbolTable) (name : Token) :
    ofExpr table (.var name) = ofVar table name := rfl

@[simp] theorem ofExpr_group (table : SymbolTable) (inner : Expr) :
    ofExpr table (.group inner) = ofExpr table inner := rfl

end Inference

end ImpFront
