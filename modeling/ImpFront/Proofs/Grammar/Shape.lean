import ImpFront.Proofs.Grammar.Kept
import ImpFront.Typing.Analysis

/-!
# The shape of what is read

The type of statements allows trees that no tokens stand for: declarations
of anything, operators that are none, a sum as the factor of a product
without parentheses around it. None of these is ever read, however broken
the tokens are. `Stmt.WellShaped` says of every part of a tree what kinds
of tokens stand in it, and of its operators that they stand at the levels
at which the tree can be written down: an operand on the left binds at
least as tightly as the operator, and one on the right more tightly, since
the operators of a level associate to the left. A declaration is never a
branch or a body, and where there is an `else`, the first branch does not
end with an `if` that could take it.

A well-shaped declaration names a type. So the analysis of what is read
never comes to a declaration that it would pass over in silence.

## Main results

* `IsExpr.wellShaped` — expressions.
* `KeepsAll.wellShaped` — all that is kept, of broken programs too.
* `strictStmts?_of_wellShaped` — no declaration is passed over.
* `stmts_wellShaped` — the statements of a program.
-/

namespace ImpFront

/-! ## Shapes -/

namespace Expr

/-- The operator on top, if it has two operands. -/
def operator? : Expr → Option Token
  | binary _ operator _ => some operator
  | _ => none

/-- An operator with two operands on top stands at the level given or at a
tighter one. -/
def Within (k : Nat) (expr : Expr) : Prop :=
  ∀ operator ∈ expr.operator?,
    ∃ j, operator.kind.looseness? = some j ∧ j ≤ k

/-- All tokens in the expression are of the kinds that belong there, and
it can be written down without further parentheses. -/
inductive WellShaped : Expr → Prop
  | literal {value : Literal} (hValue : value ≠ .nil) :
      WellShaped (.literal value)
  | var {name : Token} (hName : name.kind = .identifier) :
      WellShaped (.var name)
  | group {inner : Expr} (hInner : inner.WellShaped) :
      WellShaped (.group inner)
  | unary {operator : Token} {operand : Expr}
      (hOperator : operator.kind = .not ∨ operator.kind = .minus)
      (hOperand : operand.WellShaped) (hTight : operand.operator? = none) :
      WellShaped (.unary operator operand)
  /-- Levels count from one, so `k + 1` is any of them. -/
  | binary {k : Nat} {operator : Token} {left right : Expr}
      (hOperator : operator.kind.looseness? = some (k + 1))
      (hLeft : left.WellShaped) (hLeftTight : left.Within (k + 1))
      (hRight : right.WellShaped) (hRightTight : right.Within k) :
      WellShaped (.binary left operator right)

theorem Within.mono {j k : Nat} {expr : Expr} (h : expr.Within j)
    (hLe : j ≤ k) : expr.Within k := by
  intro operator hMem
  obtain ⟨i, hLevel, hI⟩ := h operator hMem
  exact ⟨i, hLevel, Nat.le_trans hI hLe⟩

theorem within_of_operator?_eq_none {expr : Expr}
    (h : expr.operator? = none) (k : Nat) : expr.Within k := by
  intro operator hMem
  rw [h] at hMem
  cases hMem

end Expr

namespace Stmt

/-- Is the statement the declaration of one name? -/
def isDeclaration : Stmt → Bool
  | declare .. => true
  | _ => false

/-- All tokens in the statement are of the kinds that belong there, its
expressions are well-shaped, and its parts are statements that may stand
there. -/
inductive WellShaped : Stmt → Prop
  | declare {type name : Token} (hType : type.kind = .long ∨ type.kind = .double)
      (hName : name.kind = .identifier) : WellShaped (.declare type name)
  | expression {value : Expr} (hValue : value.WellShaped) :
      WellShaped (.expression value)
  | assign {name operator : Token} {value : Expr}
      (hName : name.kind = .identifier)
      (hOperator : operator.kind.isAssignment = true)
      (hValue : value.WellShaped) : WellShaped (.assign name operator value)
  | read {name : Token} (hName : name.kind = .identifier) :
      WellShaped (.read name)
  | write {value : Expr} (hValue : value.WellShaped) :
      WellShaped (.write value)
  | block {members : List Stmt}
      (hMembers : ∀ member ∈ members, member.WellShaped) :
      WellShaped (.block members)
  | ifThen {condition : Expr} {thenPart : Stmt}
      (hCondition : condition.WellShaped) (hThen : thenPart.WellShaped)
      (hThenForm : thenPart.isDeclaration = false) :
      WellShaped (.ifThen condition thenPart)
  | ifThenElse {condition : Expr} {thenPart elsePart : Stmt}
      (hCondition : condition.WellShaped) (hThen : thenPart.WellShaped)
      (hThenForm : thenPart.isDeclaration = false)
      (hClosed : thenPart.endsOpen = false) (hElse : elsePart.WellShaped)
      (hElseForm : elsePart.isDeclaration = false) :
      WellShaped (.ifThenElse condition thenPart elsePart)
  | whileLoop {condition : Expr} {body : Stmt}
      (hCondition : condition.WellShaped) (hBody : body.WellShaped)
      (hBodyForm : body.isDeclaration = false) :
      WellShaped (.whileLoop condition body)

end Stmt

namespace Grammar

open Token (Kind)

/-! ## Expressions -/

theorem Denotes.ne_nil {token : Token} {value : Literal}
    (h : Denotes token value) : value ≠ .nil := by
  intro hNil
  subst hNil
  cases h

theorem eq_of_isUnary {kind : Kind} (h : kind.isUnary = true) :
    kind = .not ∨ kind = .minus := by
  cases kind <;> first | exact .inl rfl | exact .inr rfl | cases h

/-- At level zero no operator with two operands is on top. -/
theorem IsExpr.operator?_eq_none {tokens : List Token} {expr : Expr}
    (h : IsExpr 0 tokens expr) : expr.operator? = none := by
  cases h <;> rfl

/-- Expressions are well-shaped, and their levels are told by the operators
on top. -/
theorem IsExpr.wellShaped {k : Nat} {tokens : List Token} {expr : Expr}
    (h : IsExpr k tokens expr) : expr.WellShaped ∧ expr.Within k := by
  induction h with
  | constant hValue =>
      exact ⟨.literal hValue.ne_nil, Expr.within_of_operator?_eq_none rfl 0⟩
  | name hName => exact ⟨.var hName, Expr.within_of_operator?_eq_none rfl 0⟩
  | group _ _ _ ih =>
      exact ⟨.group ih.1, Expr.within_of_operator?_eq_none rfl 0⟩
  | unary hOperator hOperand ih =>
      exact ⟨.unary (eq_of_isUnary hOperator) ih.1 hOperand.operator?_eq_none,
        Expr.within_of_operator?_eq_none rfl 0⟩
  | tighter _ ih => exact ⟨ih.1, ih.2.mono (Nat.le_succ _)⟩
  | @binary k operator _ _ left right _ hOperator _ ihLeft ihRight =>
      refine ⟨.binary hOperator ihLeft.1 ihLeft.2 ihRight.1 ihRight.2, ?_⟩
      intro other hMem
      obtain rfl : operator = other := Option.some.inj hMem
      exact ⟨k + 1, hOperator, Nat.le_refl _⟩

/-! ## Statements -/

theorem IsCondition.wellShaped {tokens : List Token} {condition : Expr}
    (h : IsCondition tokens condition) : condition.WellShaped := by
  obtain ⟨_, hCondition, _⟩ := h
  exact hCondition.wellShaped.1

theorem IsIfHead.wellShaped {tokens : List Token} {condition : Expr}
    (h : IsIfHead tokens condition) : condition.WellShaped := by
  obtain ⟨hCondition, _⟩ := h
  exact hCondition.wellShaped

theorem IsNames.kind_eq {tokens names : List Token} (h : IsNames tokens names) :
    ∀ name ∈ names, name.kind = .identifier := by
  induction h with
  | nil => nofun
  | cons _ hName _ ih => exact List.forall_mem_cons.2 ⟨hName, ih⟩

theorem wellShaped_declareAll {type : Token} {names : List Token}
    (hType : type.kind = .long ∨ type.kind = .double)
    (hNames : ∀ name ∈ names, name.kind = .identifier) :
    (declareAll type names).WellShaped := by
  unfold declareAll
  split
  · exact .declare hType (hNames _ (List.mem_singleton.2 rfl))
  · refine .block ?_
    intro member hMem
    obtain ⟨name, hName, rfl⟩ := List.mem_map.1 hMem
    exact .declare hType (hNames name hName)

theorem IsStmt.wellShaped_of_plain {tokens : List Token} {stmt : Stmt}
    (h : IsStmt tokens stmt) (hPlain : stmt.isPlain = true) :
    stmt.WellShaped := by
  cases h with
  | read _ _ hName => exact .read hName
  | write _ _ hValue => exact .write hValue.wellShaped.1
  | assign hName hOperator hValue =>
      exact .assign hName hOperator hValue.wellShaped.1
  | expression hValue => exact .expression hValue.wellShaped.1
  | ifThen => cases hPlain
  | ifThenElse => cases hPlain
  | whileLoop => cases hPlain
  | block => cases hPlain

/-- Where a statement is wanted, no declaration of a name is kept. -/
theorem KeepsStmt.isDeclaration_eq_false {tokens : List Token} {stmt : Stmt}
    (h : KeepsStmt tokens stmt) : stmt.isDeclaration = false := by
  cases h with
  | plain _ hPlain => cases stmt <;> first | rfl | cases hPlain
  | ifThen => rfl
  | ifThenElse => rfl
  | whileLoop => rfl
  | block => rfl

mutual

theorem KeepsDecl.wellShaped {tokens : List Token} {stmt : Stmt}
    (h : KeepsDecl tokens stmt) (hNearest : stmt.ElseNearest) :
    stmt.WellShaped := by
  match h with
  | .names hType hName hMore _ =>
      exact wellShaped_declareAll hType
        (List.forall_mem_cons.2 ⟨hName, hMore.kind_eq⟩)
  | .statement hStmt => exact hStmt.wellShaped hNearest

theorem KeepsStmt.wellShaped {tokens : List Token} {stmt : Stmt}
    (h : KeepsStmt tokens stmt) (hNearest : stmt.ElseNearest) :
    stmt.WellShaped := by
  match h with
  | .plain hStmt hPlain => exact hStmt.wellShaped_of_plain hPlain
  | .ifThen _ hHead hFirst =>
      exact .ifThen hHead.wellShaped (hFirst.wellShaped hNearest)
        hFirst.isDeclaration_eq_false
  | .ifThenElse _ hHead hFirst _ hSecond =>
      obtain ⟨hClosed, hThen, hElse⟩ := hNearest
      exact .ifThenElse hHead.wellShaped (hFirst.wellShaped hThen)
        hFirst.isDeclaration_eq_false hClosed (hSecond.wellShaped hElse)
        hSecond.isDeclaration_eq_false
  | .whileLoop _ hHead hBody =>
      exact .whileLoop hHead.wellShaped (hBody.wellShaped hNearest)
        hBody.isDeclaration_eq_false
  | .block _ hMembers _ => exact .block (hMembers.wellShaped hNearest)

theorem KeepsAll.wellShaped {tokens : List Token} {stmts : List Stmt}
    (h : KeepsAll tokens stmts) (hNearest : Stmt.ElsesNearest stmts) :
    ∀ stmt ∈ stmts, stmt.WellShaped := by
  match h with
  | .nil => nofun
  | .skip hRest => exact hRest.wellShaped hNearest
  | .cons hFirst hRest =>
      exact List.forall_mem_cons.2
        ⟨hFirst.wellShaped hNearest.1, hRest.wellShaped hNearest.2⟩

end

end Grammar

/-! ## Declarations of nothing -/

namespace Analysis

mutual

/-- Look at a statement, but give up at a declaration whose word names no
type. -/
def strictStmt? (analysis : Analysis) : Stmt → Option Analysis
  | .declare type name =>
    match NumType.ofKind? type.kind with
    | none => none
    | some _ => some (analysis.declare type name)
  | .expression value => some (analysis.expression value)
  | .assign name _ value => some (analysis.assign name value)
  | .read name => some (analysis.read name)
  | .write value => some (analysis.expression value)
  | .block members => strictStmts? analysis members
  | .ifThen condition thenPart =>
    strictStmt? (analysis.expression condition) thenPart
  | .ifThenElse condition thenPart elsePart =>
    (strictStmt? (analysis.expression condition) thenPart).bind fun between =>
      strictStmt? between elsePart
  | .whileLoop condition body =>
    strictStmt? (analysis.expression condition) body

/-- Look at statements one after another, but give up at a declaration
whose word names no type. -/
def strictStmts? (analysis : Analysis) : List Stmt → Option Analysis
  | [] => some analysis
  | first :: rest =>
    (strictStmt? analysis first).bind fun between => strictStmts? between rest

end

mutual

theorem strictStmt?_of_wellShaped (analysis : Analysis) {statement : Stmt}
    (h : statement.WellShaped) :
    analysis.strictStmt? statement = some (analysis.stmt statement) := by
  match statement, h with
  | .declare type name, .declare hType _ =>
      rw [strictStmt?]
      rcases hType with hType | hType <;> rw [hType] <;> rfl
  | .expression value, _ => rfl
  | .assign name operator value, _ => rfl
  | .read name, _ => rfl
  | .write value, _ => rfl
  | .block members, .block hMembers =>
      exact strictStmts?_of_wellShaped analysis hMembers
  | .ifThen condition thenPart, .ifThen _ hThen _ =>
      exact strictStmt?_of_wellShaped (analysis.expression condition) hThen
  | .ifThenElse condition thenPart elsePart,
      .ifThenElse _ hThen _ _ hElse _ =>
      rw [strictStmt?, strictStmt?_of_wellShaped _ hThen, Option.bind_some]
      exact strictStmt?_of_wellShaped _ hElse
  | .whileLoop condition body, .whileLoop _ hBody _ =>
      exact strictStmt?_of_wellShaped (analysis.expression condition) hBody

/-- An analysis of well-shaped statements never passes over a
declaration. -/
theorem strictStmts?_of_wellShaped (analysis : Analysis) {list : List Stmt}
    (h : ∀ statement ∈ list, statement.WellShaped) :
    analysis.strictStmts? list = some (analysis.stmts list) := by
  match list with
  | [] => rfl
  | first :: rest =>
      obtain ⟨hFirst, hRest⟩ := List.forall_mem_cons.1 h
      rw [strictStmts?, strictStmt?_of_wellShaped _ hFirst, Option.bind_some]
      exact strictStmts?_of_wellShaped _ hRest

end

end Analysis

/-- **What is read is well-shaped.** Whatever the tokens are, broken or
not, every statement that is read of them is well-shaped in all its parts;
and an analysis of what was read never comes to a declaration that names
no type. -/
theorem stmts_wellShaped (tokens : List Token) :
    (∀ stmt ∈ (Program.ofTokens tokens).stmts, stmt.WellShaped) ∧
      ∀ analysis : Analysis,
        analysis.strictStmts? (Program.ofTokens tokens).stmts =
          some (analysis.stmts (Program.ofTokens tokens).stmts) := by
  have hShaped : ∀ stmt ∈ (Program.ofTokens tokens).stmts, stmt.WellShaped :=
    (Grammar.keepsAll_stmts tokens).wellShaped
      (Grammar.members_elsesNearest false (programTokens tokens))
  refine ⟨hShaped, ?_⟩
  intro analysis
  exact analysis.strictStmts?_of_wellShaped hShaped

end ImpFront
