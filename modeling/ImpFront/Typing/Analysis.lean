import ImpFront.Stmt
import ImpFront.Typing.Inference

/-!
# The meaning of statements

Statements are looked at once, in the order in which they are written. A
declaration adds its variable to the table for all that follows it, also
outside the block or branch in which it stands: there is only one scope.
All other statements leave the table as it is.

An analysis holds the table and the errors found so far, and can be
continued with further statements.

## Main results

* `symbols_read`, `symbols_assign` — only declarations change the table.
-/

namespace ImpFront

/-- What is known after some statements: the variables declared by them,
and the errors found in them, in order. -/
structure Analysis where
  symbols : SymbolTable
  errors : Array SemanticError
deriving DecidableEq

namespace Analysis

/-- The label of the only scope. -/
def globalScope : String := "global"

/-- What is known before any statement. -/
def empty : Analysis := ⟨.empty, #[]⟩

/-- Report a fault. -/
def report (analysis : Analysis) (line : Nat) (fault : SemanticFault) :
    Analysis :=
  { analysis with errors := analysis.errors.push ⟨line, fault⟩ }

/-- Add the errors found in an expression. -/
def absorb (analysis : Analysis) (found : Inference) : Analysis :=
  { analysis with errors := analysis.errors ++ found.errors }

/-- Look at an expression for its errors. -/
def expression (analysis : Analysis) (expr : Expr) : Analysis :=
  analysis.absorb (Inference.ofExpr analysis.symbols expr)

/-- Declare a variable of the type that a reserved word names. Any other
word declares nothing. -/
def declare (analysis : Analysis) (word name : Token) : Analysis :=
  match NumType.ofKind? word.kind with
  | none => analysis
  | some type =>
    match analysis.symbols.declare?
        ⟨name.lexeme, type, globalScope, none, name.line⟩ with
    | some symbols => { analysis with symbols := symbols }
    | none => analysis.report name.line (.redeclared name.lexeme)

/-- Look at an assignment: first at the variable, then at the value, and
last whether their types are the same. -/
def assign (analysis : Analysis) (name : Token) (value : Expr) : Analysis :=
  let found := Inference.ofExpr analysis.symbols value
  match analysis.symbols.typeOf? name.lexeme, found.type? with
  | none, _ =>
    (analysis.report name.line (.undeclared name.lexeme)).absorb found
  | some _, none => analysis.absorb found
  | some target, some type =>
    if target = type then analysis.absorb found
    else
      (analysis.absorb found).report name.line
        (.incompatibleAssignment target type)

/-- Look at a variable that is read into. -/
def read (analysis : Analysis) (name : Token) : Analysis :=
  if analysis.symbols.declares name.lexeme then analysis
  else analysis.report name.line (.undeclaredRead name.lexeme)

mutual

/-- Look at a statement, and before its parts at its condition if it has
one. -/
def stmt (analysis : Analysis) : Stmt → Analysis
  | .declare type name => analysis.declare type name
  | .expression value => analysis.expression value
  | .assign name _ value => analysis.assign name value
  | .read name => analysis.read name
  | .write value => analysis.expression value
  | .block members => stmts analysis members
  | .ifThen condition thenPart =>
    stmt (analysis.expression condition) thenPart
  | .ifThenElse condition thenPart elsePart =>
    stmt (stmt (analysis.expression condition) thenPart) elsePart
  | .whileLoop condition body => stmt (analysis.expression condition) body

/-- Look at statements one after another. -/
def stmts (analysis : Analysis) : List Stmt → Analysis
  | [] => analysis
  | first :: rest => stmts (stmt analysis first) rest

end

/-- Statements are looked at one after another. -/
theorem stmts_eq_foldl (analysis : Analysis) (list : List Stmt) :
    analysis.stmts list = list.foldl stmt analysis := by
  induction list generalizing analysis with
  | nil => rfl
  | cons first rest ih => rw [stmts, ih]; rfl

/-- What is known after a list of statements. -/
def ofStmts (list : List Stmt) : Analysis := empty.stmts list

@[simp] theorem symbols_report (analysis : Analysis) (line : Nat)
    (fault : SemanticFault) :
    (analysis.report line fault).symbols = analysis.symbols := rfl

@[simp] theorem symbols_expression (analysis : Analysis) (expr : Expr) :
    (analysis.expression expr).symbols = analysis.symbols := rfl

@[simp] theorem symbols_read (analysis : Analysis) (name : Token) :
    (analysis.read name).symbols = analysis.symbols := by
  unfold read
  split <;> rfl

@[simp] theorem symbols_assign (analysis : Analysis) (name : Token)
    (value : Expr) :
    (analysis.assign name value).symbols = analysis.symbols := by
  simp only [assign]
  split
  · rfl
  · rfl
  · split <;> rfl

end Analysis

end ImpFront
