import ImpFront.Stmt
import ImpFront.NumType

/-!
# Well-formed programs as rules of derivation

Which programs use their variables and types well is defined here without
a table, without errors, and without an order in which expressions are
looked at. An environment says which names are declared and with what
types. The judgement on a statement leads from one environment to the
next: declarations extend it, and everything else hands it on. There is
only one scope, so what is declared in a branch, a loop or a block is
declared behind it too.

Not every expression has a type: texts and truth values have none, and
neither does a name that is not declared. The rules compare types only
where there are two of them.

## Main results

* `checks_branch_iff`, `checks_else_iff`, `checks_loop_iff`,
  `checksAll_cons_iff` — the judgement on a statement is that on its parts,
  from left to right.
-/

namespace ImpFront.Typing

/-! ## Environments -/

/-- The declared names, and the type of each. -/
abbrev Env := String → Option NumType

/-- Nothing is declared. -/
def Env.empty : Env := fun _ => none

/-- One more name is declared. -/
def Env.extend (env : Env) (name : String) (type : NumType) : Env :=
  fun other => if name = other then some type else env other

/-! ## Expressions -/

/-- The expression has a type. A binary one has that of its left operand,
but only if its right operand has a type too. -/
inductive HasType (env : Env) : Expr → NumType → Prop
  | integer {n : Int} : HasType env (.literal (.integer n)) .long
  | real {x : Number.Binary64} : HasType env (.literal (.real x)) .double
  | var {name : Token} {type : NumType}
      (hName : env name.lexeme = some type) : HasType env (.var name) type
  | unary {operator : Token} {operand : Expr} {type : NumType}
      (hOperand : HasType env operand type) :
      HasType env (.unary operator operand) type
  | group {inner : Expr} {type : NumType} (hInner : HasType env inner type) :
      HasType env (.group inner) type
  | binary {operator : Token} {left right : Expr} {type other : NumType}
      (hLeft : HasType env left type) (hRight : HasType env right other) :
      HasType env (.binary left operator right) type

/-- The names in the expression are declared, and no operator joins two
types that differ. -/
inductive WellFormed (env : Env) : Expr → Prop
  | literal {value : Literal} : WellFormed env (.literal value)
  | var {name : Token} {type : NumType}
      (hName : env name.lexeme = some type) : WellFormed env (.var name)
  | unary {operator : Token} {operand : Expr}
      (hOperand : WellFormed env operand) :
      WellFormed env (.unary operator operand)
  | group {inner : Expr} (hInner : WellFormed env inner) :
      WellFormed env (.group inner)
  | binary {operator : Token} {left right : Expr}
      (hLeft : WellFormed env left) (hRight : WellFormed env right)
      (hSame : ∀ type other, HasType env left type →
        HasType env right other → type = other) :
      WellFormed env (.binary left operator right)

/-! ## Statements -/

/-- The type that a reserved word declares. -/
inductive Names : Token.Kind → NumType → Prop
  | long : Names .long .long
  | double : Names .double .double

mutual

/-- The statement is well-formed, and leads from one environment to
another. -/
inductive Checks : Env → Stmt → Env → Prop
  | declare {env : Env} {word name : Token} {type : NumType}
      (hWord : Names word.kind type) (hNew : env name.lexeme = none) :
      Checks env (.declare word name) (env.extend name.lexeme type)
  /-- A word that names no type declares nothing. -/
  | declareNothing {env : Env} {word name : Token}
      (hWord : ∀ type, ¬Names word.kind type) :
      Checks env (.declare word name) env
  | assign {env : Env} {name operator : Token} {value : Expr}
      {target : NumType} (hName : env name.lexeme = some target)
      (hValue : WellFormed env value)
      (hSame : ∀ type, HasType env value type → type = target) :
      Checks env (.assign name operator value) env
  | read {env : Env} {name : Token} {type : NumType}
      (hName : env name.lexeme = some type) : Checks env (.read name) env
  | write {env : Env} {value : Expr} (hValue : WellFormed env value) :
      Checks env (.write value) env
  | expression {env : Env} {value : Expr} (hValue : WellFormed env value) :
      Checks env (.expression value) env
  | block {env env' : Env} {members : List Stmt}
      (hMembers : ChecksAll env members env') :
      Checks env (.block members) env'
  | ifThen {env env' : Env} {condition : Expr} {thenPart : Stmt}
      (hCondition : WellFormed env condition)
      (hThen : Checks env thenPart env') :
      Checks env (.ifThen condition thenPart) env'
  | ifThenElse {env env' env'' : Env} {condition : Expr}
      {thenPart elsePart : Stmt} (hCondition : WellFormed env condition)
      (hThen : Checks env thenPart env') (hElse : Checks env' elsePart env'') :
      Checks env (.ifThenElse condition thenPart elsePart) env''
  | whileLoop {env env' : Env} {condition : Expr} {body : Stmt}
      (hCondition : WellFormed env condition) (hBody : Checks env body env') :
      Checks env (.whileLoop condition body) env'

/-- The statements are well-formed one after another. -/
inductive ChecksAll : Env → List Stmt → Env → Prop
  | nil {env : Env} : ChecksAll env [] env
  | cons {env env' env'' : Env} {first : Stmt} {rest : List Stmt}
      (hFirst : Checks env first env') (hRest : ChecksAll env' rest env'') :
      ChecksAll env (first :: rest) env''

end

/-! ### The judgement and the parts of a statement -/

section Inversion

variable {env env' : Env} {condition : Expr} {first second : Stmt}

theorem checks_expression_iff {value : Expr} :
    Checks env (.expression value) env' ↔
      WellFormed env value ∧ env = env' := by
  constructor
  · intro h
    cases h with
    | expression hValue => exact ⟨hValue, rfl⟩
  · rintro ⟨hValue, rfl⟩
    exact .expression hValue

theorem checks_write_iff {value : Expr} :
    Checks env (.write value) env' ↔ WellFormed env value ∧ env = env' := by
  constructor
  · intro h
    cases h with
    | write hValue => exact ⟨hValue, rfl⟩
  · rintro ⟨hValue, rfl⟩
    exact .write hValue

theorem checks_block_iff {members : List Stmt} :
    Checks env (.block members) env' ↔ ChecksAll env members env' := by
  constructor
  · intro h
    cases h with
    | block hMembers => exact hMembers
  · exact .block

theorem checks_branch_iff :
    Checks env (.ifThen condition first) env' ↔
      WellFormed env condition ∧ Checks env first env' := by
  constructor
  · intro h
    cases h with
    | ifThen hCondition hThen => exact ⟨hCondition, hThen⟩
  · rintro ⟨hCondition, hThen⟩
    exact .ifThen hCondition hThen

theorem checks_else_iff :
    Checks env (.ifThenElse condition first second) env' ↔
      WellFormed env condition ∧
        ∃ between, Checks env first between ∧ Checks between second env' := by
  constructor
  · intro h
    cases h with
    | ifThenElse hCondition hThen hElse =>
        exact ⟨hCondition, _, hThen, hElse⟩
  · rintro ⟨hCondition, _, hThen, hElse⟩
    exact .ifThenElse hCondition hThen hElse

theorem checks_loop_iff :
    Checks env (.whileLoop condition first) env' ↔
      WellFormed env condition ∧ Checks env first env' := by
  constructor
  · intro h
    cases h with
    | whileLoop hCondition hBody => exact ⟨hCondition, hBody⟩
  · rintro ⟨hCondition, hBody⟩
    exact .whileLoop hCondition hBody

theorem checksAll_nil_iff : ChecksAll env [] env' ↔ env = env' := by
  constructor
  · intro h
    cases h
    rfl
  · rintro rfl
    exact .nil

theorem checksAll_cons_iff {rest : List Stmt} :
    ChecksAll env (first :: rest) env' ↔
      ∃ between, Checks env first between ∧ ChecksAll between rest env' := by
  constructor
  · intro h
    cases h with
    | cons hFirst hRest => exact ⟨_, hFirst, hRest⟩
  · rintro ⟨_, hFirst, hRest⟩
    exact .cons hFirst hRest

end Inversion

end ImpFront.Typing
