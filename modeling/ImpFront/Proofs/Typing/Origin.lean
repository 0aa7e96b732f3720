import ImpFront.Typing.Analysis
import ImpFront.Proofs.Tree.Roles

/-!
# Errors of use tell of tokens of the program

An error in the use of variables has no token, but it was found at one: at
the name that is declared, assigned to, read into or used, or at the
operator between two operands. Its line is the line of that token, and if
it names anything then it shows the token as it is written. The analysis
makes no line and no name up.

So what is known of the tokens of a program is known of its errors. That
they are on lines on which the program has tokens is one case; which words
can stand in their messages is another.

## Main results

* `ofExpr_tell`, `stmt_tell` — the errors of expressions and of statements.
* `errors_tell` — those of a program.
* `errors_on_marked` — the lines of errors.
-/

namespace ImpFront

/-- The error was found at a token in its role: it is on the line of that
token and, if it names anything, names the token. -/
inductive SemanticError.TellsOf (roles : Roles) : SemanticError → Prop
  | redeclared {name : Token} (hName : roles.name name) :
      TellsOf roles ⟨name.line, .redeclared name.lexeme⟩
  | undeclared {name : Token} (hName : roles.name name) :
      TellsOf roles ⟨name.line, .undeclared name.lexeme⟩
  | undeclaredRead {name : Token} (hName : roles.name name) :
      TellsOf roles ⟨name.line, .undeclaredRead name.lexeme⟩
  | usedUndeclared {name : Token} (hName : roles.name name) :
      TellsOf roles ⟨name.line, .usedUndeclared name.lexeme⟩
  | incompatibleAssignment {name : Token} (hName : roles.name name)
      (target value : NumType) :
      TellsOf roles ⟨name.line, .incompatibleAssignment target value⟩
  | incompatibleOperation {operator : Token} (hOperator : roles.binary operator)
      (left right : NumType) :
      TellsOf roles
        ⟨operator.line, .incompatibleOperation operator.lexeme left right⟩

/-- All errors tell of tokens in their roles. -/
def ErrorsTell (roles : Roles) (errors : Array SemanticError) : Prop :=
  ∀ error ∈ errors, error.TellsOf roles

variable {roles : Roles}

namespace ErrorsTell

variable {first second : Array SemanticError}

theorem empty : ErrorsTell roles #[] := by
  intro error hMem
  simp at hMem

theorem push {error : SemanticError} (h : ErrorsTell roles first)
    (hError : error.TellsOf roles) : ErrorsTell roles (first.push error) := by
  intro other hMem
  rcases Array.mem_push.1 hMem with hFirst | rfl
  · exact h other hFirst
  · exact hError

theorem append (h : ErrorsTell roles first) (h' : ErrorsTell roles second) :
    ErrorsTell roles (first ++ second) := by
  intro error hMem
  rcases Array.mem_append.1 hMem with hFirst | hSecond
  · exact h error hFirst
  · exact h' error hSecond

end ErrorsTell

/-! ## Expressions -/

namespace Inference

theorem combine_tell {left right : Inference} {operator : Token}
    (hLeft : ErrorsTell roles left.errors)
    (hRight : ErrorsTell roles right.errors)
    (hOperator : roles.binary operator) :
    ErrorsTell roles (left.combine operator right).errors := by
  have hBoth := hLeft.append hRight
  simp only [combine]
  split
  · split
    · exact hBoth
    · exact hBoth.push (.incompatibleOperation hOperator _ _)
  · exact hBoth

theorem ofVar_tell {name : Token} (table : SymbolTable)
    (hName : roles.name name) :
    ErrorsTell roles (ofVar table name).errors := by
  rw [ofVar]
  split
  · exact .empty
  · exact ErrorsTell.empty.push (.usedUndeclared hName)

/-- The errors of an expression tell of its names and operators. -/
theorem ofExpr_tell (table : SymbolTable) {expr : Expr}
    (hFills : expr.Fills roles) :
    ErrorsTell roles (ofExpr table expr).errors := by
  induction expr with
  | binary left operator right ihLeft ihRight =>
      obtain ⟨hLeft, hOperator, hRight⟩ := hFills
      rw [ofExpr_binary]
      exact combine_tell (ihLeft hLeft) (ihRight hRight) hOperator
  | unary operator operand ih => exact ih hFills.2
  | literal value => exact .empty
  | var name => exact ofVar_tell table hFills
  | group inner ih => exact ih hFills

end Inference

/-! ## Statements -/

namespace Analysis

variable {analysis : Analysis}

theorem expression_tell {value : Expr} (h : ErrorsTell roles analysis.errors)
    (hFills : value.Fills roles) :
    ErrorsTell roles (analysis.expression value).errors :=
  h.append (Inference.ofExpr_tell _ hFills)

theorem declare_tell {word name : Token} (h : ErrorsTell roles analysis.errors)
    (hName : roles.name name) :
    ErrorsTell roles (analysis.declare word name).errors := by
  rw [declare]
  split
  · exact h
  · split
    · exact h
    · exact h.push (.redeclared hName)

theorem assign_tell {name : Token} {value : Expr}
    (h : ErrorsTell roles analysis.errors) (hName : roles.name name)
    (hFills : value.Fills roles) :
    ErrorsTell roles (analysis.assign name value).errors := by
  have hValue := Inference.ofExpr_tell analysis.symbols hFills
  simp only [assign]
  split
  · exact (h.push (.undeclared hName)).append hValue
  · exact h.append hValue
  · split
    · exact h.append hValue
    · exact (h.append hValue).push (.incompatibleAssignment hName _ _)

theorem read_tell {name : Token} (h : ErrorsTell roles analysis.errors)
    (hName : roles.name name) :
    ErrorsTell roles (analysis.read name).errors := by
  rw [read]
  split
  · exact h
  · exact h.push (.undeclaredRead hName)

mutual

/-- A statement adds errors that tell of its own tokens alone. -/
theorem stmt_tell {analysis : Analysis} (statement : Stmt)
    (h : ErrorsTell roles analysis.errors) (hFills : statement.Fills roles) :
    ErrorsTell roles (analysis.stmt statement).errors := by
  match statement with
  | .declare word name => exact declare_tell h hFills.2
  | .expression value | .write value => exact expression_tell h hFills
  | .assign name operator value => exact assign_tell h hFills.1 hFills.2.2
  | .read name => exact read_tell h hFills
  | .block members => exact stmts_tell members h hFills
  | .ifThen condition part | .whileLoop condition part =>
      obtain ⟨hCondition, hPart⟩ := hFills
      exact stmt_tell part (expression_tell h hCondition) hPart
  | .ifThenElse condition thenPart elsePart =>
      obtain ⟨hCondition, hThen, hElse⟩ := hFills
      have hFirst := stmt_tell thenPart (expression_tell h hCondition) hThen
      exact stmt_tell elsePart hFirst hElse

theorem stmts_tell {analysis : Analysis} (program : List Stmt)
    (h : ErrorsTell roles analysis.errors)
    (hFills : Stmt.AllFill roles program) :
    ErrorsTell roles (analysis.stmts program).errors := by
  match program with
  | [] => exact h
  | first :: rest =>
      obtain ⟨hFirst, hRest⟩ := hFills
      exact stmts_tell rest (stmt_tell first h hFirst) hRest

end

/-- The errors of a program tell of its tokens. -/
theorem errors_tell {program : List Stmt}
    (hFills : Stmt.AllFill roles program) :
    ErrorsTell roles (ofStmts program).errors :=
  stmts_tell program .empty hFills

/-- Every error of a program is on the line of a token that the program has
kept. -/
theorem errors_on_marked (program : List Stmt) :
    ∀ error ∈ (ofStmts program).errors,
      ∃ token, .token token ∈ Stmt.marksAll program ∧
        token.line = error.line := by
  have hFills : Stmt.AllFill (.uniform (.token · ∈ Stmt.marksAll program)
      fun _ => True) program :=
    Stmt.allFill_of_marks ⟨fun _ hMem => hMem, fun _ _ => trivial⟩
  intro error hMem
  cases errors_tell hFills error hMem with
  | redeclared hMark | undeclared hMark | undeclaredRead hMark
  | usedUndeclared hMark | incompatibleAssignment hMark
  | incompatibleOperation hMark => exact ⟨_, hMark, rfl⟩

end Analysis

end ImpFront
