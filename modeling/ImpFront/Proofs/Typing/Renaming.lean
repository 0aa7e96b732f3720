import Mathlib.Data.List.Find
import Mathlib.Data.Set.Function
import ImpFront.Proofs.Typing.Leaves

/-!
# Names only tell variables apart

If the names in a program are replaced by others, and different names by
different ones, then the analysis finds what it found before, with the names
in the table and in the errors replaced as well. So it does not matter what
a variable is called, and no name is treated unlike any other.

A renaming is a function on all texts, but it is only asked to keep apart
the names in the program. It may well map one of these to the same text as a
name that does not occur. The two tables are therefore compared under the
names of the program alone. That is enough, since no other name gets into a
table: `Renames` says both, and each step of the analysis keeps it.

## Main results

* `SymbolTable.Renames.find?_eq` — what the renamed table answers.
* `Inference.ofExpr_renamed` — what is known of a renamed expression.
* `Analysis.Renames.stmt`, `Analysis.Renames.stmts` — statements and programs,
  from any two analyses of which one is the other one renamed.
* `ofStmts_renamed` — the analysis of a renamed program.
-/

namespace ImpFront

/-! ## Renamed programs -/

/-- The token with its lexeme renamed. -/
def Token.renamed (rename : String → String) (token : Token) : Token :=
  { token with lexeme := rename token.lexeme }

namespace Expr

/-- The expression with its variables renamed. Operators keep their
lexemes. -/
def renamed (rename : String → String) : Expr → Expr
  | binary left operator right =>
    binary (left.renamed rename) operator (right.renamed rename)
  | unary operator operand => unary operator (operand.renamed rename)
  | literal value => literal value
  | var name => var (name.renamed rename)
  | group inner => group (inner.renamed rename)

end Expr

namespace Stmt

mutual

/-- The statement with its variables renamed, wherever they are declared,
assigned to, read into or used. -/
def renamed (rename : String → String) : Stmt → Stmt
  | declare type name => declare type (name.renamed rename)
  | expression value => expression (value.renamed rename)
  | assign name operator value =>
    assign (name.renamed rename) operator (value.renamed rename)
  | read name => read (name.renamed rename)
  | write value => write (value.renamed rename)
  | block members => block (renamedAll rename members)
  | ifThen condition thenPart =>
    ifThen (condition.renamed rename) (thenPart.renamed rename)
  | ifThenElse condition thenPart elsePart =>
    ifThenElse (condition.renamed rename) (thenPart.renamed rename)
      (elsePart.renamed rename)
  | whileLoop condition body =>
    whileLoop (condition.renamed rename) (body.renamed rename)

/-- The statements with their variables renamed. -/
def renamedAll (rename : String → String) : List Stmt → List Stmt
  | [] => []
  | stmt :: stmts => stmt.renamed rename :: renamedAll rename stmts

end

@[simp] theorem renamedAll_eq_map (rename : String → String)
    (stmts : List Stmt) : renamedAll rename stmts = stmts.map (renamed rename) := by
  induction stmts with
  | nil => rfl
  | cons stmt stmts ih => rw [renamedAll, ih]; rfl

mutual

/-- Each occurrence of a name in a statement, in the order in which they are
written. -/
def names : Stmt → List Token
  | declare _ name => [name]
  | expression value => value.names
  | assign name _ value => name :: value.names
  | read name => [name]
  | write value => value.names
  | block members => namesAll members
  | ifThen condition thenPart => condition.names ++ thenPart.names
  | ifThenElse condition thenPart elsePart =>
    condition.names ++ (thenPart.names ++ elsePart.names)
  | whileLoop condition body => condition.names ++ body.names

/-- Each occurrence of a name in statements, one statement after another. -/
def namesAll : List Stmt → List Token
  | [] => []
  | first :: rest => first.names ++ namesAll rest

end

end Stmt

/-! ## Renamed findings -/

/-- The symbol under another name. -/
def Symbol.renamed (rename : String → String) (symbol : Symbol) : Symbol :=
  { symbol with name := rename symbol.name }

/-- The fault with the name in it renamed, if it tells one. -/
def SemanticFault.renamed (rename : String → String) :
    SemanticFault → SemanticFault
  | redeclared name => redeclared (rename name)
  | undeclared name => undeclared (rename name)
  | undeclaredRead name => undeclaredRead (rename name)
  | usedUndeclared name => usedUndeclared (rename name)
  | incompatibleAssignment target value => incompatibleAssignment target value
  | incompatibleOperation operator left right =>
    incompatibleOperation operator left right

/-- The error on the same line, with its fault renamed. -/
def SemanticError.renamed (rename : String → String) (error : SemanticError) :
    SemanticError :=
  ⟨error.line, error.fault.renamed rename⟩

/-- What is known of an expression, with the names in the errors renamed. -/
def Inference.renamed (rename : String → String) (found : Inference) :
    Inference :=
  ⟨found.type?, found.errors.map (SemanticError.renamed rename)⟩

section Renaming

variable {rename : String → String} {known : Set String}

/-! ## Tables -/

namespace SymbolTable

/-- The other table has the same symbols in the same order, renamed, and
there are only known names in this one. -/
structure Renames (rename : String → String) (known : Set String)
    (table other : SymbolTable) : Prop where
  names : ∀ symbol ∈ table.symbols, symbol.name ∈ known
  symbols : other.symbols = table.symbols.map (Symbol.renamed rename)

namespace Renames

variable {table other : SymbolTable} {name : String}

/-- Under a known name the other table has the same symbol, renamed. -/
theorem find?_eq (h : Renames rename known table other)
    (hInj : Set.InjOn rename known) (hName : name ∈ known) :
    other.find? (rename name) =
      (table.find? name).map (Symbol.renamed rename) := by
  rw [find?, h.symbols, List.find?_map]
  refine congrArg (Option.map _) (List.find?_congr fun symbol hMem => ?_)
  have hSame : rename symbol.name = rename name ↔ symbol.name = name :=
    hInj.eq_iff (h.names symbol hMem) hName
  exact decide_eq_decide.2 hSame

theorem typeOf?_eq (h : Renames rename known table other)
    (hInj : Set.InjOn rename known) (hName : name ∈ known) :
    other.typeOf? (rename name) = table.typeOf? name := by
  rw [typeOf?, h.find?_eq hInj hName, Option.map_map]
  rfl

theorem declares_eq (h : Renames rename known table other)
    (hInj : Set.InjOn rename known) (hName : name ∈ known) :
    other.declares (rename name) = table.declares name := by
  rw [declares, h.find?_eq hInj hName, Option.isSome_map]
  rfl

/-- One more symbol behind all others. -/
theorem concat {next next' : SymbolTable} {symbol : Symbol}
    (h : Renames rename known table other) (hName : symbol.name ∈ known)
    (hNext : next.symbols = table.symbols ++ [symbol])
    (hNext' : next'.symbols = other.symbols ++ [symbol.renamed rename]) :
    Renames rename known next next' where
  names := by
    rw [hNext]
    exact List.forall_mem_append.2
      ⟨h.names, List.forall_mem_singleton.2 hName⟩
  symbols := by
    rw [hNext', h.symbols, hNext, List.map_append]
    rfl

end Renames

end SymbolTable

/-! ## Expressions -/

namespace Inference

theorem combine_renamed (left right : Inference) (operator : Token) :
    (left.renamed rename).combine operator (right.renamed rename) =
      (left.combine operator right).renamed rename := by
  obtain ⟨leftType, leftErrors⟩ := left
  obtain ⟨rightType, rightErrors⟩ := right
  cases leftType with
  | none => simp [combine, renamed]
  | some l =>
      cases rightType with
      | none => simp [combine, renamed]
      | some r =>
          by_cases h : l = r
          · simp [combine, renamed, h]
          · simp [combine, renamed, h, SemanticError.renamed,
              SemanticFault.renamed]

variable {table other : SymbolTable}

theorem ofVar_renamed (h : table.Renames rename known other)
    (hInj : Set.InjOn rename known) {name : Token}
    (hName : name.lexeme ∈ known) :
    ofVar other (name.renamed rename) =
      (ofVar table name).renamed rename := by
  have hType : other.typeOf? (name.renamed rename).lexeme =
      table.typeOf? name.lexeme := h.typeOf?_eq hInj hName
  rw [ofVar, ofVar, hType]
  cases table.typeOf? name.lexeme with
  | some type => simp [renamed]
  | none => simp [renamed, SemanticError.renamed, SemanticFault.renamed,
      Token.renamed, Token.line]

/-- An expression is looked up by its names alone. -/
theorem ofExpr_renamed (h : table.Renames rename known other)
    (hInj : Set.InjOn rename known) {expr : Expr}
    (hNames : ∀ name ∈ expr.names, name.lexeme ∈ known) :
    ofExpr other (expr.renamed rename) =
      (ofExpr table expr).renamed rename := by
  induction expr with
  | binary left operator right ihLeft ihRight =>
      rw [Expr.names_binary, List.forall_mem_append] at hNames
      rw [Expr.renamed, ofExpr_binary, ofExpr_binary, ihLeft hNames.1,
        ihRight hNames.2, combine_renamed]
  | unary operator operand ih => exact ih hNames
  | group inner ih => exact ih hNames
  | literal value => simp [Expr.renamed, renamed]
  | var name =>
      exact ofVar_renamed h hInj (hNames name (List.mem_singleton_self name))

end Inference

/-! ## Statements -/

namespace Analysis

/-- The other analysis has found the same, with all names renamed. -/
structure Renames (rename : String → String) (known : Set String)
    (analysis other : Analysis) : Prop where
  table : analysis.symbols.Renames rename known other.symbols
  errors : other.errors = analysis.errors.map (SemanticError.renamed rename)

namespace Renames

/-! ### Steps -/

section Step

variable {analysis other : Analysis}

theorem empty : Renames rename known .empty .empty where
  table := ⟨List.forall_mem_nil _, rfl⟩
  errors := by simp [Analysis.empty]

theorem report (h : Renames rename known analysis other) (line : Nat)
    (fault : SemanticFault) :
    Renames rename known (analysis.report line fault)
      (other.report line (fault.renamed rename)) where
  table := h.table
  errors := by
    rw [Analysis.report, Analysis.report, h.errors, Array.map_push]
    rfl

theorem absorb (h : Renames rename known analysis other) (found : Inference) :
    Renames rename known (analysis.absorb found)
      (other.absorb (found.renamed rename)) where
  table := h.table
  errors := by
    rw [Analysis.absorb, Analysis.absorb, h.errors, Array.map_append]
    rfl

theorem expression (h : Renames rename known analysis other)
    (hInj : Set.InjOn rename known) {expr : Expr}
    (hNames : ∀ name ∈ expr.names, name.lexeme ∈ known) :
    Renames rename known (analysis.expression expr)
      (other.expression (expr.renamed rename)) := by
  rw [Analysis.expression, Analysis.expression,
    Inference.ofExpr_renamed h.table hInj hNames]
  exact h.absorb _

/-- A name is taken in both tables or in none of them. -/
theorem declare (h : Renames rename known analysis other)
    (hInj : Set.InjOn rename known) (word : Token) {name : Token}
    (hName : name.lexeme ∈ known) :
    Renames rename known (analysis.declare word name)
      (other.declare word (name.renamed rename)) := by
  cases hWord : NumType.ofKind? word.kind with
  | none =>
      rw [declare_eq_self hWord, declare_eq_self hWord]
      exact h
  | some type =>
      have hType : other.symbols.typeOf? (name.renamed rename).lexeme =
          analysis.symbols.typeOf? name.lexeme := h.table.typeOf?_eq hInj hName
      cases hTaken : analysis.symbols.typeOf? name.lexeme with
      | some earlier =>
          rw [declare_eq_report hWord hTaken,
            declare_eq_report hWord (hType.trans hTaken)]
          exact h.report name.line (.redeclared name.lexeme)
      | none =>
          obtain ⟨symbols, hDeclare, hSymbols, -⟩ :=
            exists_declare_eq hWord hTaken
          obtain ⟨symbols', hDeclare', hSymbols', -⟩ :=
            exists_declare_eq hWord (hType.trans hTaken)
          rw [hDeclare, hDeclare']
          exact ⟨h.table.concat hName hSymbols hSymbols', h.errors⟩

theorem assign (h : Renames rename known analysis other)
    (hInj : Set.InjOn rename known) {name : Token} {value : Expr}
    (hName : name.lexeme ∈ known)
    (hNames : ∀ name ∈ value.names, name.lexeme ∈ known) :
    Renames rename known (analysis.assign name value)
      (other.assign (name.renamed rename) (value.renamed rename)) := by
  have hFound : Inference.ofExpr other.symbols (value.renamed rename) =
      (Inference.ofExpr analysis.symbols value).renamed rename :=
    Inference.ofExpr_renamed h.table hInj hNames
  have hTarget : other.symbols.typeOf? (name.renamed rename).lexeme =
      analysis.symbols.typeOf? name.lexeme := h.table.typeOf?_eq hInj hName
  simp only [Analysis.assign, hFound, hTarget]
  generalize Inference.ofExpr analysis.symbols value = found
  have hType : (found.renamed rename).type? = found.type? := rfl
  rw [hType]
  cases analysis.symbols.typeOf? name.lexeme with
  | none => exact (h.report name.line (.undeclared name.lexeme)).absorb found
  | some target =>
      cases found.type? with
      | none => exact h.absorb found
      | some type =>
          by_cases hSame : target = type
          · simp only [if_pos hSame]
            exact h.absorb found
          · simp only [if_neg hSame]
            exact (h.absorb found).report name.line
              (.incompatibleAssignment target type)

theorem read (h : Renames rename known analysis other)
    (hInj : Set.InjOn rename known) {name : Token}
    (hName : name.lexeme ∈ known) :
    Renames rename known (analysis.read name)
      (other.read (name.renamed rename)) := by
  have hDeclares : other.symbols.declares (name.renamed rename).lexeme =
      analysis.symbols.declares name.lexeme := h.table.declares_eq hInj hName
  rw [Analysis.read, Analysis.read, hDeclares]
  split
  · exact h
  · exact h.report name.line (.undeclaredRead name.lexeme)

end Step

/-! ### Whole runs -/

mutual

/-- A statement and the renamed one lead from analyses of which the second
is the first one renamed to such analyses. -/
theorem stmt {analysis other : Analysis} (hInj : Set.InjOn rename known)
    (h : Renames rename known analysis other) (statement : Stmt)
    (hNames : ∀ name ∈ statement.names, name.lexeme ∈ known) :
    Renames rename known (analysis.stmt statement)
      (other.stmt (statement.renamed rename)) := by
  match statement with
  | .declare word name =>
      exact h.declare hInj word (hNames name (List.mem_singleton_self name))
  | .read name => exact h.read hInj (hNames name (List.mem_singleton_self name))
  | .assign name operator value =>
      rw [Stmt.names, List.forall_mem_cons] at hNames
      exact h.assign hInj hNames.1 hNames.2
  | .expression value | .write value => exact h.expression hInj hNames
  | .block members => exact stmts hInj h members hNames
  | .ifThen condition part | .whileLoop condition part =>
      rw [Stmt.names, List.forall_mem_append] at hNames
      exact stmt hInj (h.expression hInj hNames.1) part hNames.2
  | .ifThenElse condition thenPart elsePart =>
      rw [Stmt.names, List.forall_mem_append, List.forall_mem_append] at hNames
      obtain ⟨hCondition, hThen, hElse⟩ := hNames
      have hFirst := stmt hInj (h.expression hInj hCondition) thenPart hThen
      exact stmt hInj hFirst elsePart hElse

theorem stmts {analysis other : Analysis} (hInj : Set.InjOn rename known)
    (h : Renames rename known analysis other) (program : List Stmt)
    (hNames : ∀ name ∈ Stmt.namesAll program, name.lexeme ∈ known) :
    Renames rename known (analysis.stmts program)
      (other.stmts (Stmt.renamedAll rename program)) := by
  match program with
  | [] => exact h
  | first :: rest =>
      rw [Stmt.namesAll, List.forall_mem_append] at hNames
      exact stmts hInj (stmt hInj h first hNames.1) rest hNames.2

end

end Renames

/-- **Names only tell variables apart.** Rename the variables of a program
in such a way that the names in it are kept apart. Then the analysis finds
the same faults on the same lines in the same order, with the names in them
renamed, and the table has the same symbols in the same order under their
new names: their types, scopes and lines are those they had. -/
theorem ofStmts_renamed (rename : String → String) (program : List Stmt)
    (hInj : Set.InjOn rename
      {name | name ∈ (Stmt.namesAll program).map Token.lexeme}) :
    (ofStmts (program.map (Stmt.renamed rename))).errors =
        (ofStmts program).errors.map (SemanticError.renamed rename) ∧
      (ofStmts (program.map (Stmt.renamed rename))).symbols.symbols =
        (ofStmts program).symbols.symbols.map (Symbol.renamed rename) := by
  have hRun := Renames.stmts hInj .empty program
    fun name hMem => List.mem_map_of_mem hMem
  rw [Stmt.renamedAll_eq_map] at hRun
  exact ⟨hRun.errors, hRun.table.symbols⟩

/-- In `long x; x = 0.0; read(y);` the names are swapped. The renaming maps
all other names to `x` as well, which does no harm. -/
theorem ofStmts_renamed_swapped :
    let x : Token := ⟨.identifier, "x", ⟨1, 6⟩⟩
    let y : Token := ⟨.identifier, "y", ⟨3, 6⟩⟩
    let rename : String → String := fun name => if name = "x" then "y" else "x"
    let program : List Stmt := [.declare ⟨.long, "long", ⟨1, 1⟩⟩ x,
      .assign ⟨.identifier, "x", ⟨2, 1⟩⟩ ⟨.assign, "=", ⟨2, 3⟩⟩
        (.literal (.real (.finite false .zero))), .read y]
    Set.InjOn rename {name | name ∈ (Stmt.namesAll program).map Token.lexeme} ∧
      (ofStmts (program.map (Stmt.renamed rename))).errors =
        #[⟨2, .incompatibleAssignment .long .double⟩, ⟨3, .undeclaredRead "x"⟩] ∧
      (ofStmts (program.map (Stmt.renamed rename))).symbols.symbols =
        [⟨"y", .long, "global", none, 1⟩] := by
  intro x y rename program
  have hKeeps : ∀ first ∈ ["x", "x", "y"], ∀ second ∈ ["x", "x", "y"],
      rename first = rename second → first = second := by decide
  have hInj : Set.InjOn rename
      {name | name ∈ (Stmt.namesAll program).map Token.lexeme} :=
    fun first hFirst second hSecond => hKeeps first hFirst second hSecond
  obtain ⟨hErrors, hSymbols⟩ := ofStmts_renamed rename program hInj
  rw [hErrors, hSymbols]
  exact ⟨hInj, by cbv, by cbv⟩

end Analysis

end Renaming

end ImpFront
