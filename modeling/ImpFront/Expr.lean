import ImpFront.Literal
import ImpFront.Token

/-!
# Expressions

An expression is a tree whose operators and names are the tokens they were
read from, so that whoever looks at the tree later can say where they
stand. Parentheses of the source are kept as groups.

Operators of one level associate to the left, so a long sum is a deep tree
whose depth runs down the left operands. `spine` takes such a chain
apart into its leftmost operand and the pairs of an operator with its
right operand. The functions on expressions follow the spine in a loop and
recurse only into right operands, so that the length of a chain costs no
stack.

## Main results

* `ofSpine_spine` — an expression is put together again from its spine.
* `text_binary`, `text_unary`, `text_group` — the text of a tree is made
  from the texts of its parts.
-/

namespace ImpFront

/-- An expression. -/
inductive Expr
  | binary (left : Expr) (operator : Token) (right : Expr)
  | unary (operator : Token) (operand : Expr)
  | literal (value : Literal)
  | var (name : Token)
  | group (inner : Expr)
deriving DecidableEq

namespace Expr

/-! ### The spine -/

/-- Does an operator with two operands stand at the top? -/
def isBinary : Expr → Bool
  | binary .. => true
  | _ => false

/-- The left spine of an expression that is itself the left operand of the
first of `pairs`. -/
def spineOnto (pairs : List (Token × Expr)) :
    Expr → Expr × List (Token × Expr)
  | binary left operator right => spineOnto ((operator, right) :: pairs) left
  | expr => (expr, pairs)

/-- The leftmost operand of a chain, and from left to right each operator
with its right operand. -/
def spine (expr : Expr) : Expr × List (Token × Expr) :=
  spineOnto [] expr

/-- Apply operators to an operand one after another. -/
def ofSpine (leftmost : Expr) (pairs : List (Token × Expr)) : Expr :=
  pairs.foldl (fun left pair => binary left pair.1 pair.2) leftmost

theorem ofSpine_spineOnto (pairs : List (Token × Expr)) (expr : Expr) :
    ofSpine (spineOnto pairs expr).1 (spineOnto pairs expr).2 =
      ofSpine expr pairs := by
  induction expr generalizing pairs with
  | binary left operator right ihLeft _ =>
    rw [spineOnto, ihLeft]
    rfl
  | _ => rfl

/-- Taking a chain apart loses nothing. -/
theorem ofSpine_spine (expr : Expr) :
    ofSpine expr.spine.1 expr.spine.2 = expr :=
  ofSpine_spineOnto [] expr

/-- The leftmost operand is no chain itself. -/
theorem isBinary_spineOnto (expr : Expr) (pending : List (Token × Expr)) :
    (expr.spineOnto pending).1.isBinary = false := by
  induction expr generalizing pending with
  | binary left operator right ih _ => exact ih _
  | _ => rfl

/-! ### Text -/

/-- The text of a chain whose left operand is the expression given:
`opened` parentheses stand before it, and `pending` holds the texts of the
operators behind it, each with its right operand and the parenthesis that
closes. -/
def chainText (opened : Nat) (pending : List String) : Expr → String
  | binary left operator right =>
    chainText (opened + 1)
      (s!" {operator.lexeme} {chainText 0 [] right})" :: pending) left
  | unary operator operand =>
    close s!"({operator.lexeme}{chainText 0 [] operand})"
  | literal value => close value.text
  | var name => close name.lexeme
  | group inner => close s!"(group {chainText 0 [] inner})"
where
  /-- The parentheses, the leftmost operand, and what is pending. -/
  close (operand : String) : String :=
    String.join (String.ofList (List.replicate opened '(') :: operand ::
      pending)

/-- The text of an expression: every operator in parentheses of its own,
and groups marked as such. -/
def text (expr : Expr) : String := chainText 0 [] expr

/-- What stands before a chain and what is pending surround its text. -/
theorem chainText_eq (opened : Nat) (pending : List String) (expr : Expr) :
    chainText opened pending expr =
      String.join (String.ofList (List.replicate opened '(') :: expr.text ::
        pending) := by
  have hClose (opened : Nat) (pending : List String) (operand : String) :
      chainText.close opened pending operand =
        String.join (String.ofList (List.replicate opened '(') ::
          chainText.close 0 [] operand :: pending) := by
    simp [chainText.close, String.join_cons]
  induction expr generalizing opened pending with
  | binary left operator right ih _ =>
    rw [text, chainText, chainText, ih, ih 1]
    simp [String.join_cons, List.replicate_succ', String.append_assoc]
  | _ => simp only [text, chainText]; exact hClose ..

theorem text_binary (left : Expr) (operator : Token) (right : Expr) :
    (binary left operator right).text =
      s!"({left.text} {operator.lexeme} {right.text})" := by
  rw [text, chainText, chainText_eq]
  simp [String.join_cons, String.append_assoc, toString, text]

theorem text_unary (operator : Token) (operand : Expr) :
    (unary operator operand).text =
      s!"({operator.lexeme}{operand.text})" := by
  simp [text, chainText, chainText.close, String.join_cons, toString]

@[simp] theorem text_literal (value : Literal) :
    (literal value).text = value.text := by
  simp [text, chainText, chainText.close, String.join_cons]

@[simp] theorem text_var (name : Token) : (var name).text = name.lexeme := by
  simp [text, chainText, chainText.close, String.join_cons]

theorem text_group (inner : Expr) :
    (group inner).text = s!"(group {inner.text})" := by
  simp [text, chainText, chainText.close, String.join_cons, toString]

/-! ### Agreement -/

/-- Equality of expressions, positions included, with reals compared as
numbers. -/
def agrees : Expr → Expr → Bool
  | binary l o r, binary l' o' r' => l.agrees l' && o = o' && r.agrees r'
  | unary o x, unary o' x' => o = o' && x.agrees x'
  | literal a, literal b => a.agrees b
  | var name, var name' => name = name'
  | group x, group x' => x.agrees x'
  | _, _ => false

end Expr

end ImpFront
