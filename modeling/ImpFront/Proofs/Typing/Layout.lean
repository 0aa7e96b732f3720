import ImpFront.Typing.Analysis
import ImpFront.Proofs.Grammar.Placement

/-!
# The layout of a program has no meaning

Of the positions in a program the analysis uses the lines alone, and only
to say where something is. If lines are forgotten before the analysis, then
what is found is what would have been found, with the lines forgotten. As
reading does not look at positions either, all that layout and comments can
change in the end is on which lines things are reported.

## Main results

* `ofExpr_unplaced`, `stmt_unplaced` — expressions and statements.
* `ofStmts_unplaced` — the analysis of a program.
* `layout_independent` — from tokens to the table of variables.
-/

namespace ImpFront

/-! ## Findings without lines -/

/-- The error, with its line forgotten. -/
def SemanticError.unplaced (error : SemanticError) : SemanticError :=
  { error with line := 1 }

@[simp] theorem SemanticError.unplaced_mk (line : Nat) (fault : SemanticFault) :
    unplaced ⟨line, fault⟩ = ⟨1, fault⟩ := rfl

/-- The symbol, with its line forgotten. -/
def Symbol.unplaced (symbol : Symbol) : Symbol :=
  { symbol with line := 1 }

namespace SymbolTable

/-- The table, with the lines in it forgotten. -/
def unplaced (table : SymbolTable) : SymbolTable where
  symbols := table.symbols.map Symbol.unplaced
  distinct := by
    rw [List.map_map]
    exact table.distinct

variable (table : SymbolTable)

theorem find?_unplaced (name : String) :
    table.unplaced.find? name = (table.find? name).map Symbol.unplaced :=
  List.find?_map

@[simp] theorem typeOf?_unplaced (name : String) :
    table.unplaced.typeOf? name = table.typeOf? name := by
  rw [typeOf?, find?_unplaced, Option.map_map]
  rfl

@[simp] theorem declares_unplaced (name : String) :
    table.unplaced.declares name = table.declares name := by
  rw [declares, find?_unplaced, Option.isSome_map]
  rfl

theorem declare?_unplaced (symbol : Symbol) :
    table.unplaced.declare? symbol.unplaced =
      (table.declare? symbol).map unplaced := by
  have hSame : table.unplaced.declares symbol.unplaced.name =
      table.declares symbol.name := declares_unplaced table symbol.name
  by_cases h : table.declares symbol.name = true
  · rw [declare?_eq_none_iff.2 h, declare?_eq_none_iff.2 (hSame.trans h)]
    rfl
  · have h' : ¬table.unplaced.declares symbol.unplaced.name = true := hSame ▸ h
    rw [declare?, declare?, dif_neg h, dif_neg h']
    simp [unplaced]

end SymbolTable

namespace Inference

/-- What is known of an expression, with lines forgotten. -/
def unplaced (found : Inference) : Inference :=
  ⟨found.type?, found.errors.map SemanticError.unplaced⟩

theorem combine_unplaced (left right : Inference) (operator : Token) :
    left.unplaced.combine operator.unplaced right.unplaced =
      (left.combine operator right).unplaced := by
  obtain ⟨leftType, leftErrors⟩ := left
  obtain ⟨rightType, rightErrors⟩ := right
  cases leftType with
  | none => simp [combine, unplaced]
  | some l =>
      cases rightType with
      | none => simp [combine, unplaced]
      | some r =>
          by_cases h : l = r
          · simp [combine, unplaced, h]
          · simp [combine, unplaced, h]

theorem ofVar_unplaced (table : SymbolTable) (name : Token) :
    ofVar table.unplaced name.unplaced = (ofVar table name).unplaced := by
  simp only [ofVar, Token.lexeme_unplaced, SymbolTable.typeOf?_unplaced]
  cases table.typeOf? name.lexeme <;> simp [unplaced]

theorem ofExpr_unplaced (table : SymbolTable) (expr : Expr) :
    ofExpr table.unplaced expr.unplaced = (ofExpr table expr).unplaced := by
  induction expr with
  | binary left operator right ihLeft ihRight =>
      rw [Expr.unplaced, ofExpr_binary, ofExpr_binary, ihLeft, ihRight,
        combine_unplaced]
  | unary operator operand ih => exact ih
  | literal value => simp [Expr.unplaced, unplaced]
  | var name => exact ofVar_unplaced table name
  | group inner ih => exact ih

end Inference

/-! ## Statements -/

namespace Analysis

/-- The analysis, with lines forgotten. -/
def unplaced (analysis : Analysis) : Analysis :=
  ⟨analysis.symbols.unplaced, analysis.errors.map SemanticError.unplaced⟩

variable (analysis : Analysis)

theorem report_unplaced (line : Nat) (fault : SemanticFault) :
    analysis.unplaced.report 1 fault =
      (analysis.report line fault).unplaced := by
  simp [report, unplaced]

theorem absorb_unplaced (found : Inference) :
    analysis.unplaced.absorb found.unplaced =
      (analysis.absorb found).unplaced := by
  simp [absorb, unplaced, Inference.unplaced]

theorem expression_unplaced (expr : Expr) :
    analysis.unplaced.expression expr.unplaced =
      (analysis.expression expr).unplaced := by
  rw [expression, expression, ← absorb_unplaced, ← Inference.ofExpr_unplaced]
  rfl

theorem declare_unplaced (word name : Token) :
    analysis.unplaced.declare word.unplaced name.unplaced =
      (analysis.declare word name).unplaced := by
  simp only [declare, Token.kind_unplaced]
  cases NumType.ofKind? word.kind with
  | none => rfl
  | some type =>
      have hDeclare : analysis.unplaced.symbols.declare?
            ⟨name.unplaced.lexeme, type, globalScope, none,
              name.unplaced.line⟩ =
          (analysis.symbols.declare?
            ⟨name.lexeme, type, globalScope, none, name.line⟩).map
              SymbolTable.unplaced :=
        analysis.symbols.declare?_unplaced
          ⟨name.lexeme, type, globalScope, none, name.line⟩
      simp only [hDeclare]
      cases analysis.symbols.declare? _ with
      | some symbols => rfl
      | none => exact analysis.report_unplaced name.line _

theorem assign_unplaced (name : Token) (value : Expr) :
    analysis.unplaced.assign name.unplaced value.unplaced =
      (analysis.assign name value).unplaced := by
  have hFound : Inference.ofExpr analysis.unplaced.symbols value.unplaced =
      (Inference.ofExpr analysis.symbols value).unplaced :=
    Inference.ofExpr_unplaced analysis.symbols value
  have hTarget : analysis.unplaced.symbols.typeOf? name.unplaced.lexeme =
      analysis.symbols.typeOf? name.lexeme :=
    analysis.symbols.typeOf?_unplaced name.lexeme
  simp only [assign, hFound, hTarget]
  generalize Inference.ofExpr analysis.symbols value = found
  have hType : found.unplaced.type? = found.type? := rfl
  rw [hType]
  cases analysis.symbols.typeOf? name.lexeme with
  | none =>
      show (analysis.unplaced.report 1 _).absorb found.unplaced = _
      rw [analysis.report_unplaced name.line, absorb_unplaced]
      rfl
  | some target =>
      cases found.type? with
      | none => exact analysis.absorb_unplaced found
      | some type =>
          simp only [absorb_unplaced]
          by_cases hSame : target = type
          · rw [if_pos hSame, if_pos hSame]
          · rw [if_neg hSame, if_neg hSame]
            exact (analysis.absorb found).report_unplaced name.line _

theorem read_unplaced (name : Token) :
    analysis.unplaced.read name.unplaced = (analysis.read name).unplaced := by
  have hSame : analysis.unplaced.symbols.declares name.unplaced.lexeme =
      analysis.symbols.declares name.lexeme :=
    analysis.symbols.declares_unplaced name.lexeme
  rw [read, read, hSame]
  cases analysis.symbols.declares name.lexeme with
  | true => rfl
  | false => exact analysis.report_unplaced name.line _

mutual

/-- A statement is looked at alike on every line. -/
theorem stmt_unplaced (analysis : Analysis) (statement : Stmt) :
    analysis.unplaced.stmt statement.unplaced =
      (analysis.stmt statement).unplaced := by
  match statement with
  | .declare word name => exact analysis.declare_unplaced word name
  | .expression value | .write value => exact analysis.expression_unplaced value
  | .assign name operator value => exact analysis.assign_unplaced name value
  | .read name => exact analysis.read_unplaced name
  | .block members => exact stmts_unplaced analysis members
  | .ifThen condition part | .whileLoop condition part =>
      show stmt (analysis.unplaced.expression condition.unplaced) _ = _
      rw [expression_unplaced]
      exact stmt_unplaced (analysis.expression condition) part
  | .ifThenElse condition thenPart elsePart =>
      show stmt (stmt (analysis.unplaced.expression condition.unplaced) _) _ = _
      rw [expression_unplaced,
        stmt_unplaced (analysis.expression condition) thenPart]
      exact stmt_unplaced _ elsePart

theorem stmts_unplaced (analysis : Analysis) (list : List Stmt) :
    analysis.unplaced.stmts (Stmt.unplacedAll list) =
      (analysis.stmts list).unplaced := by
  match list with
  | [] => rfl
  | first :: rest =>
      rw [Stmt.unplacedAll, stmts, stmt_unplaced analysis first]
      exact stmts_unplaced (analysis.stmt first) rest

end

/-- **The analysis uses positions only to report them.** -/
theorem ofStmts_unplaced (list : List Stmt) :
    ofStmts (list.map Stmt.unplaced) = (ofStmts list).unplaced := by
  have hEmpty : empty.unplaced = empty := by
    simp [unplaced, empty, SymbolTable.unplaced, SymbolTable.empty]
  have hStmts := stmts_unplaced empty list
  rw [hEmpty, Stmt.unplacedAll_eq_map] at hStmts
  exact hStmts

end Analysis

/-! ## From tokens to findings -/

/-- **Layout has no meaning.** Two lists of tokens which, without their
comments, agree in kinds and lexemes are read as the same statements but
for the positions in them, with the same errors about the same lexemes; and
the analysis of these statements finds the same faults and declares the
same variables. -/
theorem layout_independent {first second : List Token}
    (h : (first.filter fun token => !token.kind.isComment).map
          (fun token => (token.kind, token.lexeme)) =
        (second.filter fun token => !token.kind.isComment).map
          fun token => (token.kind, token.lexeme)) :
    (Program.ofTokens first).stmts.map Stmt.unplaced =
        (Program.ofTokens second).stmts.map Stmt.unplaced ∧
      (Program.ofTokens first).errors.map
          (fun error => (error.fault.message, error.token.lexeme)) =
        (Program.ofTokens second).errors.map
          (fun error => (error.fault.message, error.token.lexeme)) ∧
      (Analysis.ofStmts (Program.ofTokens first).stmts).errors.map
          SemanticError.fault =
        (Analysis.ofStmts (Program.ofTokens second).stmts).errors.map
          SemanticError.fault ∧
      (Analysis.ofStmts (Program.ofTokens first).stmts).symbols.symbols.map
          (fun symbol =>
            (symbol.name, symbol.type, symbol.scope, symbol.value?)) =
        (Analysis.ofStmts (Program.ofTokens second).stmts).symbols.symbols.map
          fun symbol =>
            (symbol.name, symbol.type, symbol.scope, symbol.value?) := by
  have hProgram := unplaced_ofTokens_eq h
  have hStmts := congrArg Program.stmts hProgram
  have hErrors := congrArg (fun program : Program => program.errors.map
    fun error => (error.fault.message, error.token.lexeme)) hProgram
  have hAnalysis := congrArg Analysis.ofStmts hStmts
  change Analysis.ofStmts (List.map _ _) = Analysis.ofStmts (List.map _ _)
    at hAnalysis
  rw [Analysis.ofStmts_unplaced, Analysis.ofStmts_unplaced] at hAnalysis
  have hFaults := congrArg (fun analysis : Analysis =>
    analysis.errors.map SemanticError.fault) hAnalysis
  have hSymbols := congrArg (fun analysis : Analysis =>
    analysis.symbols.symbols.map fun symbol =>
      (symbol.name, symbol.type, symbol.scope, symbol.value?)) hAnalysis
  refine ⟨hStmts, ?_, ?_, ?_⟩
  · simpa [Program.unplaced, SyntaxError.unplaced, Function.comp_def]
      using hErrors
  · simpa [Analysis.unplaced, SemanticError.unplaced, Function.comp_def]
      using hFaults
  · simpa [Analysis.unplaced, SymbolTable.unplaced, Symbol.unplaced,
      Function.comp_def] using hSymbols

/-- On two lines or on one, with a comment or without: `y = z ; x` lacks a
semicolon at the end, and its variables are not declared. -/
theorem layout_independent_two_lines :
    let first : List Token :=
      [⟨.identifier, "y", ⟨1, 1⟩⟩, ⟨.assign, "=", ⟨1, 3⟩⟩,
        ⟨.lineComment, "// last", ⟨1, 5⟩⟩, ⟨.identifier, "z", ⟨2, 1⟩⟩,
        ⟨.semicolon, ";", ⟨2, 2⟩⟩, ⟨.identifier, "x", ⟨2, 4⟩⟩]
    let second : List Token :=
      [⟨.identifier, "y", ⟨1, 1⟩⟩, ⟨.assign, "=", ⟨1, 2⟩⟩,
        ⟨.identifier, "z", ⟨1, 3⟩⟩, ⟨.semicolon, ";", ⟨1, 4⟩⟩,
        ⟨.identifier, "x", ⟨1, 5⟩⟩]
    ((first.filter fun token => !token.kind.isComment).map
          (fun token => (token.kind, token.lexeme)) =
        (second.filter fun token => !token.kind.isComment).map
          fun token => (token.kind, token.lexeme)) ∧
      (Program.ofTokens first).stmts.map Stmt.unplaced =
        (Program.ofTokens second).stmts.map Stmt.unplaced ∧
      (Program.ofTokens first).errors.map
          (fun error => (error.fault.message, error.token.lexeme)) =
        [("Se esperaba ';' después de la expresión.", "")] ∧
      (Analysis.ofStmts (Program.ofTokens first).stmts).errors.map
          SemanticError.fault = #[.undeclared "y", .usedUndeclared "z"] := by
  intro first second
  have hSame : (first.filter fun token => !token.kind.isComment).map
        (fun token => (token.kind, token.lexeme)) =
      (second.filter fun token => !token.kind.isComment).map
        fun token => (token.kind, token.lexeme) := by decide
  have hFailures : (Grammar.members false (programTokens second)).failures =
      [⟨.expressionEnd, []⟩] := by cbv
  have hErrors : (Program.ofTokens second).errors.map
        (fun error => (error.fault.message, error.token.lexeme)) =
      [("Se esperaba ';' después de la expresión.", "")] := by
    rw [Grammar.errors_ofTokens, hFailures]
    rfl
  have hFaults : (Analysis.ofStmts (Program.ofTokens second).stmts).errors.map
        SemanticError.fault = #[.undeclared "y", .usedUndeclared "z"] := by
    show (Analysis.ofStmts (Grammar.members false
      (programTokens second)).stmts).errors.map _ = _
    cbv
  obtain ⟨hStmts, hErrors', hFaults', -⟩ := layout_independent hSame
  exact ⟨hSame, hStmts, hErrors'.trans hErrors, hFaults'.trans hFaults⟩

end ImpFront
