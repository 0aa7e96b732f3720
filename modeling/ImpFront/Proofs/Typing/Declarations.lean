import Mathlib.Data.List.Induction
import ImpFront.Proofs.Typing.Agreement

/-!
# The table is the list of first declarations

An analysis goes through the declarations of a program in the order in which
they are written, wherever they stand, and takes each in one of two ways:
the first one of a name becomes a row of the table, and every other one an
error. Nothing is done twice and nothing is left out, so the declarations of
a program can be told from the table and those errors alone.

What comes between the declarations reads the table and adds errors of other
kinds. `Lists` is the invariant: the table and the errors of redeclaration
are those of the declarations so far. A declaration adds one declaration to
them, and any other step adds none.

## Main results

* `firsts_concat`, `repeats_concat` — one more declaration.
* `Lists.declare` — the step at a declaration.
* `Lists.stmt`, `Lists.stmts` — statements and programs.
* `symbols_eq_firsts` — the table and the errors of a program.
-/

namespace ImpFront

/-! ## Declarations -/

/-- A declaration of a name with a type. -/
structure Declaration where
  type : NumType
  name : Token

namespace Declaration

/-- What a word declares a name as: nothing, unless it names a type. -/
def ofTokens? (word name : Token) : Option Declaration :=
  (NumType.ofKind? word.kind).map (⟨·, name⟩)

/-- The declared variable. -/
def symbol (declaration : Declaration) : Symbol :=
  ⟨declaration.name.lexeme, declaration.type, "global", none,
    declaration.name.line⟩

/-- The error that the declaration is if its name is taken. -/
def error (declaration : Declaration) : SemanticError :=
  ⟨declaration.name.line, .redeclared declaration.name.lexeme⟩

/-- Is the name that of one of the declarations? -/
def taken (name : String) (declarations : List Declaration) : Bool :=
  declarations.any (·.name.lexeme = name)

/-- Each declaration, and whether one before it has the same name. -/
def marked (declarations : List Declaration) : List (Declaration × Bool) :=
  declarations.mapIdx fun index declaration =>
    (declaration, taken declaration.name.lexeme (declarations.take index))

/-- The declarations of names that no declaration before them has. -/
def firsts (declarations : List Declaration) : List Declaration :=
  ((marked declarations).filter fun pair => !pair.2).map Prod.fst

/-- All other declarations. -/
def repeats (declarations : List Declaration) : List Declaration :=
  ((marked declarations).filter Prod.snd).map Prod.fst

end Declaration

namespace Stmt

mutual

/-- The declarations in a statement that declare something, in the order in
which they are written. -/
def declarations : Stmt → List Declaration
  | declare word name => (Declaration.ofTokens? word name).toList
  | block members => declarationsAll members
  | ifThen _ thenPart => thenPart.declarations
  | ifThenElse _ thenPart elsePart =>
    thenPart.declarations ++ elsePart.declarations
  | whileLoop _ body => body.declarations
  | expression _ | assign .. | read _ | write _ => []

/-- The declarations in statements, one statement after another. -/
def declarationsAll : List Stmt → List Declaration
  | [] => []
  | first :: rest => first.declarations ++ declarationsAll rest

end

end Stmt

namespace Declaration

/-! ## One more declaration -/

section Concat

variable (declarations : List Declaration) (last : Declaration)

/-- What stands behind a declaration does not matter to it. -/
theorem marked_concat :
    marked (declarations ++ [last]) =
      marked declarations ++
        [(last, taken last.name.lexeme declarations)] := by
  rw [marked, List.mapIdx_concat, List.take_left, marked,
    List.append_cancel_right_eq, List.mapIdx_eq_mapIdx_iff]
  intro index hIndex
  rw [List.take_append_of_le_length (Nat.le_of_lt hIndex)]

theorem firsts_concat :
    firsts (declarations ++ [last]) = firsts declarations ++
      if taken last.name.lexeme declarations then [] else [last] := by
  rw [firsts, marked_concat, List.filter_append, List.map_append, firsts]
  cases taken last.name.lexeme declarations <;> rfl

theorem repeats_concat :
    repeats (declarations ++ [last]) = repeats declarations ++
      if taken last.name.lexeme declarations then [last] else [] := by
  rw [repeats, marked_concat, List.filter_append, List.map_append, repeats]
  cases taken last.name.lexeme declarations <;> rfl

end Concat

/-- Among the first declarations are those of all names. -/
theorem taken_firsts (name : String) (declarations : List Declaration) :
    taken name (firsts declarations) = taken name declarations := by
  induction declarations using List.reverseRecOn with
  | nil => rfl
  | append_singleton declarations last ih =>
      have hAppend : ∀ first second : List Declaration,
          taken name (first ++ second) =
            (taken name first || taken name second) :=
        fun _ _ => List.any_append
      rw [firsts_concat, hAppend, hAppend, ih]
      by_cases hTaken : taken last.name.lexeme declarations = true
      · -- a name that is taken is not declared by the last one alone
        rw [if_pos hTaken]
        by_cases hName : last.name.lexeme = name
        · rw [← hName, hTaken]
          rfl
        · simp [taken, hName]
      · rw [if_neg hTaken]

end Declaration

open Declaration (firsts repeats taken)

/-! ## What an analysis lists -/

/-- Does the fault tell that a name is declared once more? -/
def SemanticFault.isRedeclared : SemanticFault → Bool
  | .redeclared _ => true
  | _ => false

namespace Analysis

/-- The errors that tell of names declared once more. -/
def redeclared (analysis : Analysis) : List SemanticError :=
  analysis.errors.toList.filter (·.fault.isRedeclared)

/-- The table and the errors of redeclaration are those of the
declarations. -/
structure Lists (analysis : Analysis) (declarations : List Declaration) :
    Prop where
  symbols : analysis.symbols.symbols =
    (firsts declarations).map Declaration.symbol
  redeclared : analysis.redeclared =
    (repeats declarations).map Declaration.error

section Report

variable (analysis : Analysis) (line : Nat)

theorem redeclared_report {fault : SemanticFault}
    (h : fault.isRedeclared = false) :
    (analysis.report line fault).redeclared = analysis.redeclared := by
  simp [redeclared, report, List.filter_append, h]

theorem redeclared_report_name (name : String) :
    (analysis.report line (.redeclared name)).redeclared =
      analysis.redeclared ++ [⟨line, .redeclared name⟩] := by
  simp [redeclared, report, List.filter_append, SemanticFault.isRedeclared]

/-- In expressions nothing is declared once more. -/
theorem redeclared_ofExpr (table : SymbolTable) (expr : Expr) :
    (Inference.ofExpr table expr).errors.toList.filter
      (·.fault.isRedeclared) = [] := by
  induction expr with
  | binary left operator right ihLeft ihRight =>
      rw [Inference.ofExpr_binary, filter_errors_combine fun _ _ _ => rfl,
        ihLeft, ihRight, List.append_nil]
  | unary operator operand ih => exact ih
  | group inner ih => exact ih
  | literal value => rfl
  | var name =>
      rw [Inference.ofExpr_var, Inference.ofVar]
      split <;> rfl

theorem redeclared_absorb (table : SymbolTable) (expr : Expr) :
    (analysis.absorb (Inference.ofExpr table expr)).redeclared =
      analysis.redeclared := by
  rw [redeclared, absorb, Array.toList_append, List.filter_append,
    redeclared_ofExpr, List.append_nil, redeclared]

end Report

/-! ## Steps -/

namespace Lists

variable {analysis : Analysis} {declarations : List Declaration}

theorem empty : Lists .empty [] := ⟨rfl, rfl⟩

/-- A step that keeps the table, and finds nothing declared once more. -/
theorem of_eq {next : Analysis} (h : Lists analysis declarations)
    (hSymbols : next.symbols = analysis.symbols)
    (hRedeclared : next.redeclared = analysis.redeclared) :
    Lists next declarations :=
  ⟨hSymbols ▸ h.symbols, hRedeclared ▸ h.redeclared⟩

/-- The names in the table are those of all declarations so far. -/
theorem declares_eq (h : Lists analysis declarations) (name : String) :
    analysis.symbols.declares name = taken name declarations := by
  rw [Bool.eq_iff_iff, SymbolTable.declares_iff, h.symbols,
    ← Declaration.taken_firsts, List.map_map]
  simp [taken, Declaration.symbol]

/-- A declaration becomes the last row of the table or the last error. -/
theorem declare (h : Lists analysis declarations) (word name : Token) :
    Lists (analysis.declare word name)
      (declarations ++ (Declaration.ofTokens? word name).toList) := by
  cases hWord : NumType.ofKind? word.kind with
  | none =>
      rw [declare_eq_self hWord, Declaration.ofTokens?, hWord,
        Option.map_none, Option.toList_none, List.append_nil]
      exact h
  | some type =>
      have hTaken := h.declares_eq name.lexeme
      rw [← SymbolTable.isSome_typeOf?] at hTaken
      rw [Declaration.ofTokens?, hWord, Option.map_some, Option.toList_some]
      cases hName : analysis.symbols.typeOf? name.lexeme with
      | some other =>
          rw [hName, Option.isSome_some] at hTaken
          rw [declare_eq_report hWord hName]
          constructor
          · rw [Declaration.firsts_concat, ← hTaken, if_pos rfl,
              List.append_nil]
            exact h.symbols
          · rw [Declaration.repeats_concat, ← hTaken, if_pos rfl,
              List.map_append, ← h.redeclared]
            exact redeclared_report_name ..
      | none =>
          rw [hName, Option.isSome_none] at hTaken
          obtain ⟨symbols, hDeclare, hSymbols, -⟩ :=
            exists_declare_eq hWord hName
          rw [hDeclare]
          constructor
          · rw [Declaration.firsts_concat, ← hTaken,
              if_neg Bool.false_ne_true, List.map_append, ← h.symbols]
            exact hSymbols
          · rw [Declaration.repeats_concat, ← hTaken,
              if_neg Bool.false_ne_true, List.append_nil]
            exact h.redeclared

theorem expression (h : Lists analysis declarations) (expr : Expr) :
    Lists (analysis.expression expr) declarations :=
  h.of_eq rfl (redeclared_absorb ..)

theorem assign (h : Lists analysis declarations) (name : Token)
    (value : Expr) : Lists (analysis.assign name value) declarations := by
  refine h.of_eq (symbols_assign ..) ?_
  simp only [Analysis.assign]
  split
  · rw [redeclared_absorb]
    exact redeclared_report _ _ rfl
  · exact redeclared_absorb ..
  · split
    · exact redeclared_absorb ..
    · rw [redeclared_report _ _ rfl]
      exact redeclared_absorb ..

theorem read (h : Lists analysis declarations) (name : Token) :
    Lists (analysis.read name) declarations := by
  refine h.of_eq (symbols_read ..) ?_
  rw [Analysis.read]
  split
  · rfl
  · exact redeclared_report _ _ rfl

/-! ### Whole runs -/

mutual

/-- A statement adds the declarations in it. -/
theorem stmt {analysis : Analysis} {declarations : List Declaration}
    (statement : Stmt) (h : Lists analysis declarations) :
    Lists (analysis.stmt statement) (declarations ++ statement.declarations) := by
  match statement with
  | .declare word name => exact h.declare word name
  | .assign name operator value =>
      rw [Stmt.declarations, List.append_nil]
      exact h.assign name value
  | .read name =>
      rw [Stmt.declarations, List.append_nil]
      exact h.read name
  | .expression value | .write value =>
      rw [Stmt.declarations, List.append_nil]
      exact h.expression value
  | .block members => exact stmts members h
  | .ifThen condition part | .whileLoop condition part =>
      exact stmt part (h.expression condition)
  | .ifThenElse condition thenPart elsePart =>
      have hThen := stmt thenPart (h.expression condition)
      rw [Stmt.declarations, ← List.append_assoc]
      exact stmt elsePart hThen

/-- A program adds the declarations of its statements in their order. -/
theorem stmts {analysis : Analysis} {declarations : List Declaration}
    (program : List Stmt) (h : Lists analysis declarations) :
    Lists (analysis.stmts program)
      (declarations ++ Stmt.declarationsAll program) := by
  match program with
  | [] =>
      rw [Stmt.declarationsAll, List.append_nil]
      exact h
  | first :: rest =>
      rw [Stmt.declarationsAll, ← List.append_assoc]
      exact stmts rest (stmt first h)

end

end Lists

/-- **The table is the list of first declarations.** Behind a program the
table has a row for the first declaration of each name, in the order of
these declarations, and the errors of redeclaration are all the other ones,
in their order. Assignments, reading and expressions leave any table as it
is. -/
theorem symbols_eq_firsts (program : List Stmt) :
    (ofStmts program).symbols.symbols =
        (firsts (Stmt.declarationsAll program)).map Declaration.symbol ∧
      (ofStmts program).errors.toList.filter (·.fault.isRedeclared) =
        (repeats (Stmt.declarationsAll program)).map Declaration.error ∧
      ∀ (analysis : Analysis) (name operator : Token) (value : Expr),
        (analysis.stmt (.assign name operator value)).symbols =
            analysis.symbols ∧
          (analysis.stmt (.read name)).symbols = analysis.symbols ∧
          (analysis.stmt (.write value)).symbols = analysis.symbols ∧
          (analysis.stmt (.expression value)).symbols = analysis.symbols := by
  have hLists := Lists.stmts program Lists.empty
  refine ⟨hLists.symbols, hLists.redeclared, ?_⟩
  intro analysis name operator value
  exact ⟨symbols_assign .., symbols_read .., rfl, rfl⟩

/-- A declaration in a branch counts for what stands behind the branch: of
`if (1) then { long x; } double x; double y;` the second one is left out. -/
example :
    let long : Token := ⟨.long, "long", ⟨1, 13⟩⟩
    let double : Token := ⟨.double, "double", ⟨2, 1⟩⟩
    let x : Token := ⟨.identifier, "x", ⟨1, 18⟩⟩
    let x' : Token := ⟨.identifier, "x", ⟨2, 8⟩⟩
    let y : Token := ⟨.identifier, "y", ⟨3, 8⟩⟩
    let program : List Stmt := [.ifThen (.literal (.integer 1))
      (.block [.declare long x]), .declare double x', .declare double y]
    firsts (Stmt.declarationsAll program) = [⟨.long, x⟩, ⟨.double, y⟩] ∧
      repeats (Stmt.declarationsAll program) = [⟨.double, x'⟩] :=
  ⟨rfl, rfl⟩

end Analysis

end ImpFront
