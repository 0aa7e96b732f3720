import ImpFront.Grammar.Statement

/-!
# The grammar as rules of derivation

The language is defined here without a reader: which lists of tokens are
expressions, statements and programs, and which trees they stand for.

An expression of level `k + 1` is one of level `k`, or one of level
`k + 1` followed by an operator of that level and an expression of level
`k`; so the rules are left-recursive, and the trees of a level lean to the
left. The rules for conditions are ambiguous: an `else` may belong to any
`if` before it that lacks one. `Stmt.ElseNearest` singles out the trees in
which it belongs to the nearest.

## Main results

* `IsExpr.begins`, `IsStmt.begins`, `IsDecl.begins` — what phrases begin
  with.
* `IsExpr.second_of_name` — behind a name in front, an expression goes on
  with an operator or not at all.
* `elsesNearest_iff` — a list of trees is told member by member.
-/

namespace ImpFront.Grammar

open Token (Kind)

/-! ## Rules -/

/-- The value that a constant denotes. Numbers count only if their text
can be read. -/
inductive Denotes (token : Token) : Literal → Prop
  | integer {n : Int} (hKind : token.kind = .integer)
      (hRead : Number.integer? token.lexeme = some n) :
      Denotes token (.integer n)
  | real {x : Number.Binary64} (hKind : token.kind = .real)
      (hRead : Number.real? token.lexeme = some x) : Denotes token (.real x)
  | string (hKind : token.kind = .string) :
      Denotes token (.string token.lexeme)
  | boolean (hKind : token.kind = .boolean) :
      Denotes token (.boolean (token.lexeme = "true"))

/-- The expressions of a level, from the operands at level zero up to
disjunctions at the loosest one. -/
inductive IsExpr : Nat → List Token → Expr → Prop
  | constant {token : Token} {value : Literal} (hValue : Denotes token value) :
      IsExpr 0 [token] (.literal value)
  | name {token : Token} (hName : token.kind = .identifier) :
      IsExpr 0 [token] (.var token)
  | group {opening closing : Token} {tokens : List Token} {inner : Expr}
      (hOpening : opening.kind = .leftParen)
      (hInner : IsExpr loosest tokens inner)
      (hClosing : closing.kind = .rightParen) :
      IsExpr 0 (opening :: (tokens ++ [closing])) (.group inner)
  | unary {operator : Token} {tokens : List Token} {operand : Expr}
      (hOperator : operator.kind.isUnary = true)
      (hOperand : IsExpr 0 tokens operand) :
      IsExpr 0 (operator :: tokens) (.unary operator operand)
  | tighter {k : Nat} {tokens : List Token} {expr : Expr}
      (hExpr : IsExpr k tokens expr) : IsExpr (k + 1) tokens expr
  | binary {k : Nat} {operator : Token} {first second : List Token}
      {left right : Expr} (hLeft : IsExpr (k + 1) first left)
      (hOperator : operator.kind.looseness? = some (k + 1))
      (hRight : IsExpr k second right) :
      IsExpr (k + 1) (first ++ operator :: second)
        (.binary left operator right)

/-- A comma and a name, as often as they follow each other. -/
inductive IsNames : List Token → List Token → Prop
  | nil : IsNames [] []
  | cons {comma name : Token} {tokens names : List Token}
      (hComma : comma.kind = .comma) (hName : name.kind = .identifier)
      (hMore : IsNames tokens names) :
      IsNames (comma :: name :: tokens) (name :: names)

mutual

/-- Declarations and statements. A declaration of several names is a block
of declarations that share the token of their type. -/
inductive IsDecl : List Token → Stmt → Prop
  | one {type name semicolon : Token}
      (hType : type.kind = .long ∨ type.kind = .double)
      (hName : name.kind = .identifier)
      (hEnd : semicolon.kind = .semicolon) :
      IsDecl [type, name, semicolon] (.declare type name)
  | several {type name semicolon : Token} {tokens names : List Token}
      (hType : type.kind = .long ∨ type.kind = .double)
      (hName : name.kind = .identifier) (hMore : IsNames tokens names)
      (hSeveral : names ≠ []) (hEnd : semicolon.kind = .semicolon) :
      IsDecl (type :: name :: (tokens ++ [semicolon]))
        (.block ((name :: names).map (.declare type)))
  | statement {tokens : List Token} {stmt : Stmt}
      (hStmt : IsStmt tokens stmt) : IsDecl tokens stmt

/-- Statements. -/
inductive IsStmt : List Token → Stmt → Prop
  | read {word opening name closing semicolon : Token}
      (hWord : word.kind = .read) (hOpening : opening.kind = .leftParen)
      (hName : name.kind = .identifier)
      (hClosing : closing.kind = .rightParen)
      (hEnd : semicolon.kind = .semicolon) :
      IsStmt [word, opening, name, closing, semicolon] (.read name)
  | write {word opening closing semicolon : Token} {tokens : List Token}
      {value : Expr} (hWord : word.kind = .write)
      (hOpening : opening.kind = .leftParen)
      (hValue : IsExpr loosest tokens value)
      (hClosing : closing.kind = .rightParen)
      (hEnd : semicolon.kind = .semicolon) :
      IsStmt (word :: opening :: (tokens ++ [closing, semicolon]))
        (.write value)
  | ifThen {word opening closing thenWord : Token}
      {tokens first : List Token} {condition : Expr} {thenPart : Stmt}
      (hWord : word.kind = .ifWord) (hOpening : opening.kind = .leftParen)
      (hCondition : IsExpr loosest tokens condition)
      (hClosing : closing.kind = .rightParen)
      (hThen : thenWord.kind = .thenWord) (hFirst : IsStmt first thenPart) :
      IsStmt (word :: opening :: (tokens ++ closing :: thenWord :: first))
        (.ifThen condition thenPart)
  | ifThenElse {word opening closing thenWord elseWord : Token}
      {tokens first second : List Token} {condition : Expr}
      {thenPart elsePart : Stmt} (hWord : word.kind = .ifWord)
      (hOpening : opening.kind = .leftParen)
      (hCondition : IsExpr loosest tokens condition)
      (hClosing : closing.kind = .rightParen)
      (hThen : thenWord.kind = .thenWord) (hFirst : IsStmt first thenPart)
      (hElse : elseWord.kind = .elseWord)
      (hSecond : IsStmt second elsePart) :
      IsStmt (word :: opening ::
          (tokens ++ closing :: thenWord :: (first ++ elseWord :: second)))
        (.ifThenElse condition thenPart elsePart)
  | whileLoop {word opening closing : Token} {tokens inside : List Token}
      {condition : Expr} {body : Stmt} (hWord : word.kind = .whileWord)
      (hOpening : opening.kind = .leftParen)
      (hCondition : IsExpr loosest tokens condition)
      (hClosing : closing.kind = .rightParen)
      (hBody : IsStmt inside body) :
      IsStmt (word :: opening :: (tokens ++ closing :: inside))
        (.whileLoop condition body)
  | block {opening closing : Token} {tokens : List Token}
      {stmts : List Stmt} (hOpening : opening.kind = .leftBrace)
      (hMembers : IsProgram tokens stmts)
      (hClosing : closing.kind = .rightBrace) :
      IsStmt (opening :: (tokens ++ [closing])) (.block stmts)
  | assign {name operator semicolon : Token} {tokens : List Token}
      {value : Expr} (hName : name.kind = .identifier)
      (hOperator : operator.kind.isAssignment = true)
      (hValue : IsExpr loosest tokens value)
      (hEnd : semicolon.kind = .semicolon) :
      IsStmt (name :: operator :: (tokens ++ [semicolon]))
        (.assign name operator value)
  | expression {semicolon : Token} {tokens : List Token} {value : Expr}
      (hValue : IsExpr loosest tokens value)
      (hEnd : semicolon.kind = .semicolon) :
      IsStmt (tokens ++ [semicolon]) (.expression value)

/-- Programs, and what stands between the braces of a block: declarations
and statements, one after another. -/
inductive IsProgram : List Token → List Stmt → Prop
  | nil : IsProgram [] []
  | cons {first rest : List Token} {stmt : Stmt} {stmts : List Stmt}
      (hFirst : IsDecl first stmt) (hRest : IsProgram rest stmts) :
      IsProgram (first ++ rest) (stmt :: stmts)

end

/-! ## The nearest `else` -/

end ImpFront.Grammar

namespace ImpFront.Stmt

/-- Could an `else` behind the statement belong to an `if` inside it? -/
def endsOpen : Stmt → Bool
  | ifThen _ _ => true
  | ifThenElse _ _ elsePart => elsePart.endsOpen
  | whileLoop _ body => body.endsOpen
  | _ => false

mutual

/-- Every `else` in the statement belongs to the nearest `if` before it that
lacks one: no `if` with an `else` leaves another one open before it. -/
def ElseNearest : Stmt → Prop
  | block members => ElsesNearest members
  | ifThen _ thenPart => thenPart.ElseNearest
  | ifThenElse _ thenPart elsePart =>
    thenPart.endsOpen = false ∧ thenPart.ElseNearest ∧ elsePart.ElseNearest
  | whileLoop _ body => body.ElseNearest
  | _ => True

/-- The same for each statement of a list. -/
def ElsesNearest : List Stmt → Prop
  | [] => True
  | stmt :: stmts => stmt.ElseNearest ∧ ElsesNearest stmts

end

theorem elsesNearest_iff (stmts : List Stmt) :
    ElsesNearest stmts ↔ ∀ stmt ∈ stmts, stmt.ElseNearest := by
  induction stmts with
  | nil => simp [ElsesNearest]
  | cons stmt stmts ih => simp [ElsesNearest, ih]

end ImpFront.Stmt

namespace ImpFront.Grammar

open Token (Kind)

/-! ## What phrases begin with -/

/-- Can an operand begin with the kind? -/
def beginsOperand : Kind → Bool
  | .not | .minus | .leftParen => true
  | .identifier | .integer | .real | .string | .boolean => true
  | _ => false

/-- Can a statement begin with the kind? -/
def beginsStmt : Kind → Bool
  | .read | .write | .ifWord | .whileWord | .leftBrace => true
  | kind => beginsOperand kind

/-- Can a declaration or a statement begin with the kind? -/
def beginsDecl : Kind → Bool
  | .long | .double => true
  | kind => beginsStmt kind

theorem Denotes.kind {token : Token} {value : Literal}
    (h : Denotes token value) :
    token.kind = .integer ∨ token.kind = .real ∨ token.kind = .string ∨
      token.kind = .boolean := by
  cases h with
  | integer hKind _ => exact .inl hKind
  | real hKind _ => exact .inr (.inl hKind)
  | string hKind => exact .inr (.inr (.inl hKind))
  | boolean hKind => exact .inr (.inr (.inr hKind))

theorem Denotes.begins {token : Token} {value : Literal}
    (h : Denotes token value) : beginsOperand token.kind = true := by
  rcases h.kind with hKind | hKind | hKind | hKind <;> rw [hKind] <;> rfl

theorem beginsOperand_of_isUnary {kind : Kind} (h : kind.isUnary = true) :
    beginsOperand kind = true := by
  cases kind <;> first | rfl | cases h

theorem IsExpr.begins {k : Nat} {tokens : List Token} {expr : Expr}
    (h : IsExpr k tokens expr) :
    ∃ token rest, tokens = token :: rest ∧
      beginsOperand token.kind = true := by
  induction h with
  | constant hValue => exact ⟨_, [], rfl, hValue.begins⟩
  | name hName => exact ⟨_, [], rfl, by rw [hName]; rfl⟩
  | group hOpening _ _ _ => exact ⟨_, _, rfl, by rw [hOpening]; rfl⟩
  | unary hOperator _ _ =>
      exact ⟨_, _, rfl, beginsOperand_of_isUnary hOperator⟩
  | tighter _ ih => exact ih
  | binary _ _ _ ih _ =>
      obtain ⟨token, rest, rfl, hKind⟩ := ih
      exact ⟨token, _, rfl, hKind⟩

/-- A name in front of an expression that goes on is a left operand. -/
theorem IsExpr.second_of_name {k : Nat} {tokens : List Token} {expr : Expr}
    (h : IsExpr k tokens expr) {name next : Token} {rest : List Token}
    (hTokens : tokens = name :: next :: rest)
    (hName : name.kind = .identifier) : next.kind.looseness? ≠ none := by
  induction h generalizing rest with
  | constant hValue => cases hTokens
  | name _ => cases hTokens
  | group hOpening _ _ _ =>
      obtain ⟨rfl, _⟩ := List.cons.inj hTokens
      rw [hName] at hOpening
      cases hOpening
  | unary hOperator _ _ =>
      obtain ⟨rfl, _⟩ := List.cons.inj hTokens
      rw [hName] at hOperator
      cases hOperator
  | tighter _ ih => exact ih hTokens
  | @binary k operator first second left right hLeft hOperator _ ih _ =>
      match first, hLeft.begins with
      | [token], _ =>
          obtain ⟨_, hRest⟩ := List.cons.inj hTokens
          obtain ⟨rfl, _⟩ := List.cons.inj hRest
          rw [hOperator]
          exact Option.some_ne_none _
      | token :: next' :: first', _ =>
          obtain ⟨rfl, hRest⟩ := List.cons.inj hTokens
          obtain ⟨rfl, _⟩ := List.cons.inj hRest
          exact ih rfl

theorem beginsStmt_of_beginsOperand {kind : Kind}
    (h : beginsOperand kind = true) : beginsStmt kind = true := by
  cases kind <;> first | rfl | cases h

theorem beginsDecl_of_beginsStmt {kind : Kind} (h : beginsStmt kind = true) :
    beginsDecl kind = true := by
  cases kind <;> first | rfl | cases h

theorem IsStmt.begins {tokens : List Token} {stmt : Stmt}
    (h : IsStmt tokens stmt) :
    ∃ token rest, tokens = token :: rest ∧ beginsStmt token.kind = true := by
  cases h with
  | read hWord => exact ⟨_, _, rfl, by rw [hWord]; rfl⟩
  | write hWord => exact ⟨_, _, rfl, by rw [hWord]; rfl⟩
  | ifThen hWord => exact ⟨_, _, rfl, by rw [hWord]; rfl⟩
  | ifThenElse hWord => exact ⟨_, _, rfl, by rw [hWord]; rfl⟩
  | whileLoop hWord => exact ⟨_, _, rfl, by rw [hWord]; rfl⟩
  | block hOpening => exact ⟨_, _, rfl, by rw [hOpening]; rfl⟩
  | assign hName => exact ⟨_, _, rfl, by rw [hName]; rfl⟩
  | expression hValue _ =>
      obtain ⟨token, rest, rfl, hKind⟩ := hValue.begins
      exact ⟨token, _, rfl, beginsStmt_of_beginsOperand hKind⟩

theorem IsDecl.begins {tokens : List Token} {stmt : Stmt}
    (h : IsDecl tokens stmt) :
    ∃ token rest, tokens = token :: rest ∧ beginsDecl token.kind = true := by
  cases h with
  | one hType =>
      refine ⟨_, _, rfl, ?_⟩
      rcases hType with hType | hType <;> rw [hType] <;> rfl
  | several hType =>
      refine ⟨_, _, rfl, ?_⟩
      rcases hType with hType | hType <;> rw [hType] <;> rfl
  | statement hStmt =>
      obtain ⟨token, rest, rfl, hKind⟩ := hStmt.begins
      exact ⟨token, rest, rfl, beginsDecl_of_beginsStmt hKind⟩

end ImpFront.Grammar
