import ImpFront.Proofs.Typing.Judgement
import ImpFront.Typing.Analysis

/-!
# The analysis finds nothing exactly in well-formed programs

The analysis works on a table, threads it through a program, and collects
errors; the judgement knows nothing of tables and errors. They agree: an
analysis adds no error to none if and only if what it looks at is
well-formed in the environment that its table stands for, and then the
table that it ends with stands for the environment that the judgement
leads to.

An analysis never takes an error back, so one that is without errors at the
end was so all the way. This makes the equivalences compose: `Stands` holds
behind a statement exactly if there were no errors in front of it and the
judgement leads from there to here.

## Main results

* `hasType_iff`, `wellFormed_iff` — expressions.
* `stands_stmt_iff`, `stands_stmts_iff` — statements, from any analysis on.
* `errors_eq_empty_iff_checks` — programs.
-/

namespace ImpFront

open Typing

/-! ## Expressions -/

section Expression

variable {table : SymbolTable}

@[simp] theorem type?_combine (left right : Inference) (operator : Token) :
    (left.combine operator right).type? =
      match left.type?, right.type? with
      | some type, some _ => some type
      | _, _ => none := by
  simp only [Inference.combine]
  cases left.type? with
  | none => rfl
  | some l =>
      cases right.type? with
      | none => rfl
      | some r => by_cases h : l = r <;> simp [h]

/-- An operator adds an error exactly if it joins two types that differ. -/
theorem errors_combine_eq_empty_iff (left right : Inference)
    (operator : Token) :
    (left.combine operator right).errors = #[] ↔
      left.errors = #[] ∧ right.errors = #[] ∧
        ∀ type other, left.type? = some type → right.type? = some other →
          type = other := by
  simp only [Inference.combine]
  cases left.type? with
  | none => simp
  | some l =>
      cases right.type? with
      | none => simp
      | some r => by_cases h : l = r <;> simp [h]

/-- Of the errors that operators do not add, there are those of the left
operand and then those of the right one. -/
theorem filter_errors_combine {kept : SemanticFault → Bool}
    (hKept : ∀ operator left right,
      kept (.incompatibleOperation operator left right) = false)
    (left right : Inference) (operator : Token) :
    (left.combine operator right).errors.toList.filter (kept ·.fault) =
      left.errors.toList.filter (kept ·.fault) ++
        right.errors.toList.filter (kept ·.fault) := by
  simp only [Inference.combine]
  split
  · split <;> simp [hKept]
  · simp

/-- Inference finds the type of an expression that has one. -/
theorem hasType_iff (expr : Expr) (type : NumType) :
    HasType table.typeOf? expr type ↔
      (Inference.ofExpr table expr).type? = some type := by
  induction expr generalizing type with
  | binary left operator right ihLeft ihRight =>
      rw [Inference.ofExpr_binary, type?_combine]
      constructor
      · intro h
        cases h with
        | binary hLeft hRight =>
            rw [(ihLeft _).1 hLeft, (ihRight _).1 hRight]
      · intro h
        split at h
        · next type' other hLeft hRight =>
          cases h
          exact .binary ((ihLeft type).2 hLeft) ((ihRight other).2 hRight)
        · cases h
  | unary operator operand ih =>
      rw [Inference.ofExpr_unary, ← ih]
      exact ⟨fun | .unary h => h, .unary⟩
  | group inner ih =>
      rw [Inference.ofExpr_group, ← ih]
      exact ⟨fun | .group h => h, .group⟩
  | literal value =>
      rw [Inference.ofExpr_literal]
      constructor
      · intro h
        cases h <;> rfl
      · intro h
        cases value <;> cases h
        · exact .integer
        · exact .real
  | var name =>
      rw [Inference.ofExpr_var, Inference.ofVar]
      constructor
      · intro h
        cases h with
        | var hName => rw [hName]
      · intro h
        cases hName : table.typeOf? name.lexeme with
        | none => rw [hName] at h; cases h
        | some type' => rw [hName] at h; cases h; exact .var hName

/-- Inference finds errors in all expressions but the well-formed ones. -/
theorem wellFormed_iff (expr : Expr) :
    WellFormed table.typeOf? expr ↔
      (Inference.ofExpr table expr).errors = #[] := by
  induction expr with
  | binary left operator right ihLeft ihRight =>
      rw [Inference.ofExpr_binary, errors_combine_eq_empty_iff, ← ihLeft,
        ← ihRight]
      simp only [← hasType_iff]
      exact ⟨fun | .binary hLeft hRight hSame => ⟨hLeft, hRight, hSame⟩,
        fun ⟨hLeft, hRight, hSame⟩ => .binary hLeft hRight hSame⟩
  | unary operator operand ih =>
      rw [Inference.ofExpr_unary, ← ih]
      exact ⟨fun | .unary h => h, .unary⟩
  | group inner ih =>
      rw [Inference.ofExpr_group, ← ih]
      exact ⟨fun | .group h => h, .group⟩
  | literal value => exact ⟨fun _ => rfl, fun _ => .literal⟩
  | var name =>
      rw [Inference.ofExpr_var, Inference.ofVar]
      constructor
      · intro h
        cases h with
        | var hName => rw [hName]
      · intro h
        cases hName : table.typeOf? name.lexeme with
        | none => rw [hName] at h; cases h
        | some type => exact .var hName

end Expression

/-! ## Statements -/

theorem names_iff (kind : Token.Kind) (type : NumType) :
    Names kind type ↔ NumType.ofKind? kind = some type := by
  constructor
  · intro h
    cases h <;> rfl
  · intro h
    cases kind <;> cases h
    · exact .long
    · exact .double

namespace Analysis

/-- Nothing was found, and the table stands for the environment. -/
def Stands (analysis : Analysis) (env : Env) : Prop :=
  analysis.errors = #[] ∧ analysis.symbols.typeOf? = env

/-- What holds from an analysis without errors on, holds in the environment
that it stands for. -/
theorem exists_stands_iff (analysis : Analysis) (P : Env → Prop) :
    analysis.errors = #[] ∧ P analysis.symbols.typeOf? ↔
      ∃ env, analysis.Stands env ∧ P env := by
  constructor
  · rintro ⟨hErrors, h⟩
    exact ⟨_, ⟨hErrors, rfl⟩, h⟩
  · rintro ⟨_, ⟨hErrors, rfl⟩, h⟩
    exact ⟨hErrors, h⟩

theorem errors_report_ne_empty {analysis : Analysis} {line : Nat}
    {fault : SemanticFault} : (analysis.report line fault).errors ≠ #[] :=
  Array.push_ne_empty

theorem errors_absorb_eq_empty_iff (analysis : Analysis) (found : Inference) :
    (analysis.absorb found).errors = #[] ↔
      analysis.errors = #[] ∧ found.errors = #[] :=
  Array.append_eq_empty_iff

variable {analysis : Analysis} {env : Env}

theorem errors_expression_eq_empty_iff (expr : Expr) :
    (analysis.expression expr).errors = #[] ↔
      analysis.errors = #[] ∧ WellFormed analysis.symbols.typeOf? expr := by
  rw [wellFormed_iff]
  exact errors_absorb_eq_empty_iff ..

/-! ### Declarations -/

section Declare

variable {word name : Token} {type : NumType}

/-- A word that names no type declares nothing. -/
theorem declare_eq_self (hWord : NumType.ofKind? word.kind = none) :
    analysis.declare word name = analysis := by
  rw [declare, hWord]

/-- A name that has a type is refused. -/
theorem declare_eq_report {other : NumType}
    (hWord : NumType.ofKind? word.kind = some type)
    (hTaken : analysis.symbols.typeOf? name.lexeme = some other) :
    analysis.declare word name =
      analysis.report name.line (.redeclared name.lexeme) := by
  have hDeclares : analysis.symbols.declares name.lexeme = true := by
    rw [SymbolTable.typeOf?, Option.map_eq_some_iff] at hTaken
    obtain ⟨symbol, hFind, _⟩ := hTaken
    rw [SymbolTable.declares, hFind]
    rfl
  have hNone : analysis.symbols.declare?
      ⟨name.lexeme, type, globalScope, none, name.line⟩ = none :=
    SymbolTable.declare?_eq_none_iff.2 hDeclares
  rw [declare, hWord]
  simp only [hNone]

/-- A name that has none is added to the table. -/
theorem exists_declare_eq (hWord : NumType.ofKind? word.kind = some type)
    (hNew : analysis.symbols.typeOf? name.lexeme = none) :
    ∃ symbols : SymbolTable,
      analysis.declare word name = { analysis with symbols := symbols } ∧
      symbols.symbols = analysis.symbols.symbols ++
        [⟨name.lexeme, type, globalScope, none, name.line⟩] ∧
      symbols.typeOf? =
        Env.extend analysis.symbols.typeOf? name.lexeme type := by
  have hDeclares : analysis.symbols.declares name.lexeme ≠ true := by
    rw [SymbolTable.typeOf?, Option.map_eq_none_iff] at hNew
    rw [SymbolTable.declares, hNew]
    exact Bool.false_ne_true
  cases hTable : analysis.symbols.declare?
      ⟨name.lexeme, type, globalScope, none, name.line⟩ with
  | none => exact absurd (SymbolTable.declare?_eq_none_iff.1 hTable) hDeclares
  | some symbols =>
      refine ⟨symbols, ?_, SymbolTable.symbols_declare? hTable, ?_⟩
      · rw [declare, hWord]
        simp only [hTable]
      · funext other
        rw [SymbolTable.typeOf?, SymbolTable.find?_declare? hTable]
        show _ = if name.lexeme = other then some type else _
        split <;> rfl

theorem stands_declare_iff (word name : Token) :
    (analysis.declare word name).Stands env ↔
      analysis.errors = #[] ∧
        Checks analysis.symbols.typeOf? (.declare word name) env := by
  cases hWord : NumType.ofKind? word.kind with
  | none =>
      have hNot : ∀ type, ¬Names word.kind type := by
        intro type hNames
        rw [names_iff, hWord] at hNames
        cases hNames
      rw [declare_eq_self hWord]
      constructor
      · rintro ⟨hErrors, rfl⟩
        exact ⟨hErrors, .declareNothing hNot⟩
      · rintro ⟨hErrors, hChecks⟩
        cases hChecks with
        | declare hNames => exact absurd hNames (hNot _)
        | declareNothing => exact ⟨hErrors, rfl⟩
  | some type =>
      have hNames := (names_iff _ _).2 hWord
      cases hName : analysis.symbols.typeOf? name.lexeme with
      | some other =>
          rw [declare_eq_report hWord hName]
          constructor
          · rintro ⟨hErrors, _⟩
            exact absurd hErrors errors_report_ne_empty
          · rintro ⟨_, hChecks⟩
            cases hChecks with
            | declare _ hNew => cases hName.symm.trans hNew
            | declareNothing hNot => exact absurd hNames (hNot _)
      | none =>
          obtain ⟨symbols, hDeclare, -, hEnv⟩ := exists_declare_eq hWord hName
          rw [hDeclare]
          constructor
          · rintro ⟨hErrors, rfl⟩
            exact ⟨hErrors, hEnv ▸ .declare hNames hName⟩
          · rintro ⟨hErrors, hChecks⟩
            cases hChecks with
            | declare hOther _ =>
                cases hWord.symm.trans ((names_iff _ _).1 hOther)
                exact ⟨hErrors, hEnv⟩
            | declareNothing hNot => exact absurd hNames (hNot _)

end Declare

/-! ### Uses -/

theorem stands_expression_iff (value : Expr) :
    (analysis.expression value).Stands env ↔
      analysis.errors = #[] ∧
        WellFormed analysis.symbols.typeOf? value ∧
        analysis.symbols.typeOf? = env := by
  rw [Stands, errors_expression_eq_empty_iff, and_assoc]
  rfl

theorem stands_read_iff (name : Token) :
    (analysis.read name).Stands env ↔
      analysis.errors = #[] ∧
        Checks analysis.symbols.typeOf? (.read name) env := by
  have hDeclares : analysis.symbols.declares name.lexeme = true ↔
      ∃ type, analysis.symbols.typeOf? name.lexeme = some type := by
    rw [SymbolTable.declares, SymbolTable.typeOf?]
    cases analysis.symbols.find? name.lexeme <;> simp
  rw [read]
  split
  · next hName =>
    obtain ⟨type, hType⟩ := hDeclares.1 hName
    constructor
    · rintro ⟨hErrors, rfl⟩
      exact ⟨hErrors, .read hType⟩
    · rintro ⟨hErrors, hChecks⟩
      cases hChecks
      exact ⟨hErrors, rfl⟩
  · next hName =>
    constructor
    · rintro ⟨hErrors, _⟩
      exact absurd hErrors errors_report_ne_empty
    · rintro ⟨_, hChecks⟩
      cases hChecks with
      | read hType => exact absurd (hDeclares.2 ⟨_, hType⟩) hName

/-- An assignment adds no error exactly if its variable is declared, its
value well-formed, and the type of the value, if there is one, that of the
variable. -/
theorem errors_assign_eq_empty_iff (name : Token) (value : Expr) :
    (analysis.assign name value).errors = #[] ↔
      analysis.errors = #[] ∧
        ∃ target, analysis.symbols.typeOf? name.lexeme = some target ∧
          WellFormed analysis.symbols.typeOf? value ∧
          ∀ type, HasType analysis.symbols.typeOf? value type →
            type = target := by
  simp only [wellFormed_iff, hasType_iff, assign]
  cases hName : analysis.symbols.typeOf? name.lexeme with
  | none => simp [errors_absorb_eq_empty_iff, errors_report_ne_empty]
  | some target =>
      cases hType : (Inference.ofExpr analysis.symbols value).type? with
      | none => simp [errors_absorb_eq_empty_iff]
      | some type =>
          by_cases hSame : target = type
          · simp [errors_absorb_eq_empty_iff, hSame]
          · simp [errors_report_ne_empty, hSame, Ne.symm hSame]

theorem stands_assign_iff (name operator : Token) (value : Expr) :
    (analysis.assign name value).Stands env ↔
      analysis.errors = #[] ∧
        Checks analysis.symbols.typeOf? (.assign name operator value) env := by
  rw [Stands, errors_assign_eq_empty_iff, symbols_assign]
  constructor
  · rintro ⟨⟨hErrors, target, hName, hValue, hSame⟩, rfl⟩
    exact ⟨hErrors, .assign hName hValue hSame⟩
  · rintro ⟨hErrors, hChecks⟩
    cases hChecks with
    | assign hName hValue hSame =>
        exact ⟨⟨hErrors, _, hName, hValue, hSame⟩, rfl⟩

/-! ### Compound statements -/

mutual

/-- An analysis of a statement is without errors exactly if it was before,
and the statement is well-formed. -/
theorem stands_stmt_iff (analysis : Analysis) (statement : Stmt) (env : Env) :
    (analysis.stmt statement).Stands env ↔
      analysis.errors = #[] ∧
        Checks analysis.symbols.typeOf? statement env := by
  match statement with
  | .declare word name => exact stands_declare_iff word name
  | .assign name operator value => exact stands_assign_iff name operator value
  | .read name => exact stands_read_iff name
  | .expression value =>
      rw [stmt, stands_expression_iff, checks_expression_iff]
  | .write value =>
      rw [stmt, stands_expression_iff, checks_write_iff]
  | .block members =>
      rw [stmt, stands_stmts_iff analysis members, checks_block_iff]
  | .ifThen condition thenPart =>
      rw [stmt, stands_stmt_iff _ thenPart, errors_expression_eq_empty_iff,
        and_assoc, checks_branch_iff]
      rfl
  | .ifThenElse condition thenPart elsePart =>
      rw [stmt, stands_stmt_iff _ elsePart,
        exists_stands_iff _ (Checks · elsePart env), checks_else_iff]
      simp only [stands_stmt_iff _ thenPart, errors_expression_eq_empty_iff,
        symbols_expression, and_assoc, exists_and_left]
  | .whileLoop condition body =>
      rw [stmt, stands_stmt_iff _ body, errors_expression_eq_empty_iff,
        and_assoc, checks_loop_iff]
      rfl

theorem stands_stmts_iff (analysis : Analysis) (list : List Stmt)
    (env : Env) :
    (analysis.stmts list).Stands env ↔
      analysis.errors = #[] ∧
        ChecksAll analysis.symbols.typeOf? list env := by
  match list with
  | [] =>
      rw [stmts, checksAll_nil_iff]
      rfl
  | first :: rest =>
      rw [stmts, stands_stmts_iff _ rest,
        exists_stands_iff _ (ChecksAll · rest env), checksAll_cons_iff]
      simp only [stands_stmt_iff _ first, and_assoc, exists_and_left]

end

/-- **The analysis is sound and complete.** It finds no error in a program
if and only if the program is well-formed from the empty environment on;
and then it ends with a table of the names and types that the judgement
leads to. -/
theorem errors_eq_empty_iff_checks (program : List Stmt) :
    ((ofStmts program).errors = #[] ↔
      ∃ env, ChecksAll .empty program env) ∧
    ∀ env, ((ofStmts program).errors = #[] ∧
        (ofStmts program).symbols.typeOf? = env) ↔
      ChecksAll .empty program env := by
  have hStands : ∀ env, (ofStmts program).Stands env ↔
      ChecksAll .empty program env := by
    intro env
    rw [ofStmts, stands_stmts_iff]
    exact ⟨fun h => h.2, fun h => ⟨rfl, h⟩⟩
  refine ⟨?_, hStands⟩
  constructor
  · intro hErrors
    exact ⟨_, (hStands _).1 ⟨hErrors, rfl⟩⟩
  · rintro ⟨env, hChecks⟩
    exact ((hStands env).2 hChecks).1

end Analysis

end ImpFront
