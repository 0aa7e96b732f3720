import ImpFront.Expr

/-!
# Statements

A statement is a tree over expressions and tokens. A declaration of
several names has no form of its own: it is a block of declarations that
share the token of their type. Blocks open no scope, so nothing is lost.
-/

namespace ImpFront

/-- A statement. -/
inductive Stmt
  | declare (type name : Token)
  | expression (value : Expr)
  | assign (name operator : Token) (value : Expr)
  | read (name : Token)
  | write (value : Expr)
  | block (members : List Stmt)
  | ifThen (condition : Expr) (thenPart : Stmt)
  | ifThenElse (condition : Expr) (thenPart elsePart : Stmt)
  | whileLoop (condition : Expr) (body : Stmt)

namespace Stmt

mutual

/-- The text of a statement: the name of its form, and in parentheses its
parts. -/
def text : Stmt → String
  | declare type name => s!"VarDecl({type.lexeme} {name.lexeme})"
  | expression value => s!"ExprStmt({value.text})"
  | assign name operator value =>
    s!"Assign({name.lexeme} {operator.lexeme} {value.text})"
  | read name => s!"Read({name.lexeme})"
  | write value => s!"Write({value.text})"
  | block members =>
    "Block([" ++ String.intercalate ", " (texts members) ++ "])"
  | ifThen condition thenPart => s!"If({condition.text}, {thenPart.text})"
  | ifThenElse condition thenPart elsePart =>
    s!"If({condition.text}, {thenPart.text}, {elsePart.text})"
  | whileLoop condition body => s!"While({condition.text}, {body.text})"

/-- The texts of the members of a block. -/
def texts : List Stmt → List String
  | [] => []
  | stmt :: stmts => stmt.text :: texts stmts

end

@[simp] theorem texts_eq_map (stmts : List Stmt) :
    texts stmts = stmts.map text := by
  induction stmts with
  | nil => rfl
  | cons stmt stmts ih => rw [texts, ih]; rfl

end Stmt

end ImpFront
