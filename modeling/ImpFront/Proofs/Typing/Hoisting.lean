import Mathlib.Data.List.Perm.Basic
import ImpFront.Proofs.Grammar.Shape
import ImpFront.Proofs.Typing.Declarations
import ImpFront.Proofs.Typing.Table

/-!
# Declarations may come first

In a well-formed program a declaration can be moved in front of any statement
before it. That statement cannot use the name, which is not declared yet, and
it cannot declare it either. So it does not see the difference: it is
well-formed in the larger environment as well, and leads from there to what
the two led to in their first order.

From this one exchange all others follow. Blocks of declarations move as
their members do, any number of such statements can be brought to the front
of a program, and there they can stand in any order. The analysis behind all
that finds no errors, and its table has the same symbols, though not in the
same order.

## Main results

* `HasType.of_wellFormed`, `WellFormed.of_le` — expressions where more names
  are declared.
* `Checks.extend`, `ChecksAll.extend` — statements where one more name is.
* `comesFirst_of_declaresOnly`, `ChecksAll.gathered` — one exchange, and all
  of them.
* `ofStmts_hoisted` — the analysis of the reordered program.
-/

namespace ImpFront

/-- Is the statement a declaration or a block of declarations? -/
def Stmt.declaresOnly : Stmt → Bool
  | .block members => members.all Stmt.isDeclaration
  | statement => statement.isDeclaration

namespace Typing

/-! ## Larger environments -/

namespace Env

variable {env env' env'' : Env} {name other : String} {type type' : NumType}

/-- The second environment has all names of the first, with their types. -/
def Le (env env' : Env) : Prop :=
  ∀ name type, env name = some type → env' name = some type

theorem Le.refl (env : Env) : env.Le env := fun _ _ h => h

theorem Le.trans (h : env.Le env') (h' : env'.Le env'') : env.Le env'' :=
  fun name type hName => h' name type (h name type hName)

/-- What is not declared in the larger environment is not declared in the
smaller one. -/
theorem Le.eq_none (h : env.Le env') (hName : env' name = none) :
    env name = none := by
  cases hType : env name with
  | none => rfl
  | some type => cases hName.symm.trans (h name type hType)

theorem extend_of_ne (hName : name ≠ other) :
    env.extend name type other = env other := if_neg hName

theorem le_extend (hNew : env name = none) : env.Le (env.extend name type) := by
  intro other type' hOther
  have hName : name ≠ other := by
    rintro rfl
    cases hNew.symm.trans hOther
  rw [extend_of_ne hName, hOther]

/-- An extended environment lacks what it lacked, but for the new name. -/
theorem extend_eq_none_iff :
    env.extend name type other = none ↔ name ≠ other ∧ env other = none := by
  by_cases hName : name = other
  · simp [extend, hName]
  · simp [extend, hName]

theorem extend_comm (hName : name ≠ other) :
    (env.extend name type).extend other type' =
      (env.extend other type').extend name type := by
  funext third
  by_cases hThird : name = third
  · subst hThird
    simp [extend, hName.symm]
  · simp [extend, hThird]

end Env

/-! ### Expressions -/

section Expression

variable {env env' : Env} {expr : Expr} {type : NumType}

/-- A well-formed expression gets no type that it did not have: all its
names are declared already. -/
theorem HasType.of_wellFormed (hLe : env.Le env')
    (hWell : WellFormed env expr) (h : HasType env' expr type) :
    HasType env expr type := by
  induction h with
  | integer => exact .integer
  | real => exact .real
  | var hName =>
      cases hWell with
      | var hEarlier =>
          cases hName.symm.trans (hLe _ _ hEarlier)
          exact .var hEarlier
  | unary _ ih =>
      cases hWell with
      | unary hOperand => exact .unary (ih hOperand)
  | group _ ih =>
      cases hWell with
      | group hInner => exact .group (ih hInner)
  | binary _ _ ihLeft ihRight =>
      cases hWell with
      | binary hLeft hRight _ => exact .binary (ihLeft hLeft) (ihRight hRight)

theorem WellFormed.of_le (hLe : env.Le env') (h : WellFormed env expr) :
    WellFormed env' expr := by
  induction h with
  | literal => exact .literal
  | var hName => exact .var (hLe _ _ hName)
  | unary _ ih => exact .unary ih
  | group _ ih => exact .group ih
  | binary hLeft hRight hSame ihLeft ihRight =>
      refine .binary ihLeft ihRight fun type other hType hOther => ?_
      exact hSame type other (hType.of_wellFormed hLe hLeft)
        (hOther.of_wellFormed hLe hRight)

end Expression

/-! ### Statements -/

mutual

/-- Statements declare names and forget none. -/
theorem Checks.le {env env' : Env} {statement : Stmt}
    (h : Checks env statement env') : env.Le env' := by
  match h with
  | .declare _ hNew => exact Env.le_extend hNew
  | .declareNothing _ | .assign .. | .read _ | .write _ | .expression _ =>
      exact .refl env
  | .block hMembers => exact hMembers.le
  | .ifThen _ hPart | .whileLoop _ hPart => exact hPart.le
  | .ifThenElse _ hThen hElse => exact hThen.le.trans hElse.le

theorem ChecksAll.le {env env' : Env} {list : List Stmt}
    (h : ChecksAll env list env') : env.Le env' := by
  match h with
  | .nil => exact .refl env
  | .cons hFirst hRest => exact hFirst.le.trans hRest.le

end

mutual

/-- Where a name is declared that a statement does not declare itself, the
statement leads to the same as before and this name. -/
theorem Checks.extend {env env' : Env} {statement : Stmt} {name : String}
    (type : NumType) (h : Checks env statement env')
    (hNew : env' name = none) :
    Checks (env.extend name type) statement (env'.extend name type) := by
  have hLe : env.Le (env.extend name type) := Env.le_extend (h.le.eq_none hNew)
  match h with
  | .declare hWord hOther =>
      obtain ⟨hName, -⟩ := Env.extend_eq_none_iff.1 hNew
      rw [Env.extend_comm hName]
      exact .declare hWord (Env.extend_eq_none_iff.2 ⟨hName.symm, hOther⟩)
  | .declareNothing hWord => exact .declareNothing hWord
  | .assign hName hValue hSame =>
      refine .assign (hLe _ _ hName) (hValue.of_le hLe) fun type' hType => ?_
      exact hSame type' (hType.of_wellFormed hLe hValue)
  | .read hName => exact .read (hLe _ _ hName)
  | .write hValue => exact .write (hValue.of_le hLe)
  | .expression hValue => exact .expression (hValue.of_le hLe)
  | .block hMembers => exact .block (hMembers.extend type hNew)
  | .ifThen hCondition hThen =>
      exact .ifThen (hCondition.of_le hLe) (hThen.extend type hNew)
  | .ifThenElse hCondition hThen hElse =>
      have hBetween := hThen.extend type (hElse.le.eq_none hNew)
      exact .ifThenElse (hCondition.of_le hLe) hBetween
        (hElse.extend type hNew)
  | .whileLoop hCondition hBody =>
      exact .whileLoop (hCondition.of_le hLe) (hBody.extend type hNew)

theorem ChecksAll.extend {env env' : Env} {list : List Stmt} {name : String}
    (type : NumType) (h : ChecksAll env list env') (hNew : env' name = none) :
    ChecksAll (env.extend name type) list (env'.extend name type) := by
  match h with
  | .nil => exact .nil
  | .cons hFirst hRest =>
      have hBetween := hFirst.extend type (hRest.le.eq_none hNew)
      exact .cons hBetween (hRest.extend type hNew)

end

/-! ## Exchanges -/

variable {env env' : Env} {first statement : Stmt} {rest other : List Stmt}

theorem checksAll_append_iff :
    ChecksAll env (rest ++ other) env' ↔
      ∃ between, ChecksAll env rest between ∧ ChecksAll between other env' := by
  induction rest generalizing env with
  | nil => simp [checksAll_nil_iff]
  | cons first rest ih =>
      simp only [List.cons_append, checksAll_cons_iff, ih]
      constructor
      · rintro ⟨next, hFirst, between, hRest, hOther⟩
        exact ⟨between, ⟨next, hFirst, hRest⟩, hOther⟩
      · rintro ⟨between, ⟨next, hFirst, hRest⟩, hOther⟩
        exact ⟨next, hFirst, between, hRest, hOther⟩

/-- The statement may be moved in front of any other one. -/
def ComesFirst (statement : Stmt) : Prop :=
  ∀ (earlier : Stmt) (env env' : Env),
    ChecksAll env [earlier, statement] env' →
      ChecksAll env [statement, earlier] env'

theorem comesFirst_declare (word name : Token) :
    ComesFirst (.declare word name) := by
  intro earlier env env' h
  obtain ⟨between, hEarlier, hRest⟩ := checksAll_cons_iff.1 h
  obtain ⟨_, hDeclare, hNil⟩ := checksAll_cons_iff.1 hRest
  cases checksAll_nil_iff.1 hNil
  cases hDeclare with
  | declare hWord hNew =>
      exact .cons (.declare hWord (hEarlier.le.eq_none hNew))
        (.cons (hEarlier.extend _ hNew) .nil)
  | declareNothing hWord =>
      exact .cons (.declareNothing hWord) (.cons hEarlier .nil)

/-- Statements that may come first do so one after another. -/
theorem ChecksAll.moved (hRest : ∀ member ∈ rest, ComesFirst member)
    (h : ChecksAll env (first :: rest) env') :
    ChecksAll env (rest ++ [first]) env' := by
  induction rest generalizing env with
  | nil => exact h
  | cons member rest ih =>
      obtain ⟨hMember, hRest⟩ := List.forall_mem_cons.1 hRest
      have hSplit : ChecksAll env ([first, member] ++ rest) env' := h
      obtain ⟨between, hTwo, hMore⟩ := checksAll_append_iff.1 hSplit
      obtain ⟨next, hFirst, hNext⟩ :=
        checksAll_cons_iff.1 (hMember first env between hTwo)
      exact .cons hFirst
        (ih hRest (checksAll_append_iff.2 ⟨between, hNext, hMore⟩))

theorem comesFirst_block (hMembers : ∀ member ∈ rest, ComesFirst member) :
    ComesFirst (.block rest) := by
  intro earlier env env' h
  obtain ⟨between, hEarlier, hBlock⟩ := checksAll_cons_iff.1 h
  obtain ⟨_, hRest, hNil⟩ := checksAll_cons_iff.1 hBlock
  cases checksAll_nil_iff.1 hNil
  have hMoved : ChecksAll env (rest ++ [earlier]) env' :=
    (ChecksAll.cons hEarlier (checks_block_iff.1 hRest)).moved hMembers
  obtain ⟨next, hFront, hBehind⟩ := checksAll_append_iff.1 hMoved
  exact .cons (.block hFront) hBehind

theorem comesFirst_of_isDeclaration (h : statement.isDeclaration = true) :
    ComesFirst statement := by
  cases statement with
  | declare word name => exact comesFirst_declare word name
  | _ => cases h

/-- Declarations and blocks of declarations may come first. -/
theorem comesFirst_of_declaresOnly (h : statement.declaresOnly = true) :
    ComesFirst statement := by
  cases statement with
  | block members =>
      refine comesFirst_block fun member hMem => ?_
      exact comesFirst_of_isDeclaration (List.all_eq_true.1 h member hMem)
  | declare word name => exact comesFirst_declare word name
  | _ => cases h

/-! ### Whole programs -/

/-- Statements that may come first can stand in any order. -/
theorem ChecksAll.perm (hPerm : rest.Perm other)
    (hRest : ∀ member ∈ rest, ComesFirst member)
    (h : ChecksAll env rest env') : ChecksAll env other env' := by
  induction hPerm generalizing env with
  | nil => exact h
  | cons member _ ih =>
      obtain ⟨between, hMember, hMore⟩ := checksAll_cons_iff.1 h
      exact .cons hMember (ih (List.forall_mem_cons.1 hRest).2 hMore)
  | swap second first more =>
      have hSplit : ChecksAll env ([first, second] ++ more) env' := h
      obtain ⟨between, hTwo, hMore⟩ := checksAll_append_iff.1 hSplit
      have hSecond : ComesFirst second :=
        hRest second (List.mem_cons_of_mem first List.mem_cons_self)
      exact checksAll_append_iff.2
        ⟨between, hSecond first env between hTwo, hMore⟩
  | trans hFirst _ ih ih' =>
      exact ih' (fun member hMem => hRest member (hFirst.mem_iff.2 hMem))
        (ih hRest h)

/-- All statements of a kind that may come first can be brought to the
front. -/
theorem ChecksAll.gathered {kind : Stmt → Bool}
    (hKind : ∀ member, kind member = true → ComesFirst member)
    (h : ChecksAll env rest env') :
    ChecksAll env (rest.filter kind ++ rest.filter (!kind ·)) env' := by
  induction rest generalizing env with
  | nil => exact h
  | cons first rest ih =>
      obtain ⟨next, hFirst, hRest⟩ := checksAll_cons_iff.1 h
      have hGathered := ih hRest
      cases hMoves : kind first with
      | true =>
          rw [List.filter_cons_of_pos hMoves,
            List.filter_cons_of_neg (by simp [hMoves])]
          exact .cons hFirst hGathered
      | false =>
          rw [List.filter_cons_of_neg (by simp [hMoves]),
            List.filter_cons_of_pos (by simp [hMoves])]
          obtain ⟨between, hFront, hBehind⟩ :=
            checksAll_append_iff.1 hGathered
          have hMoved : ChecksAll env (rest.filter kind ++ [first]) between :=
            (ChecksAll.cons hFirst hFront).moved fun member hMem =>
              hKind member (List.mem_filter.1 hMem).2
          rw [List.append_cons]
          exact checksAll_append_iff.2 ⟨between, hMoved, hBehind⟩

/-- Statements that may come first can be brought to the front and stand
there in any order. -/
theorem ChecksAll.hoisted {kind : Stmt → Bool}
    (hKind : ∀ member, kind member = true → ComesFirst member)
    (hPerm : other.Perm (rest.filter kind)) (h : ChecksAll env rest env') :
    ChecksAll env (other ++ rest.filter (!kind ·)) env' := by
  obtain ⟨between, hFront, hBehind⟩ := checksAll_append_iff.1 (h.gathered hKind)
  have hMoves : ∀ member ∈ rest.filter kind, ComesFirst member :=
    fun member hMem => hKind member (List.mem_filter.1 hMem).2
  exact checksAll_append_iff.2
    ⟨between, hFront.perm hPerm.symm hMoves, hBehind⟩

end Typing

/-! ## Tables -/

namespace SymbolTable

/-- Tables of the same symbols agree in whatever order these stand, unless a
symbol has a value that differs from itself. -/
theorem agrees_of_perm {a b : SymbolTable} (hPerm : a.symbols.Perm b.symbols)
    (hSelf : ∀ symbol ∈ a.symbols, symbol.agrees symbol = true) :
    a.agrees b = true := by
  rw [agrees, Bool.and_eq_true, decide_eq_true_iff, List.all_eq_true]
  refine ⟨hPerm.length_eq, fun symbol hMem => ?_⟩
  rw [find?_of_mem (hPerm.mem_iff.1 hMem)]
  exact hSelf symbol hMem

end SymbolTable

/-- What a declaration declares has no value yet. -/
theorem Declaration.agrees_symbol (declaration : Declaration) :
    declaration.symbol.agrees declaration.symbol = true := by
  simp [symbol, Symbol.agrees]

theorem Declaration.map_fst_marked (declarations : List Declaration) :
    (marked declarations).map Prod.fst = declarations :=
  List.ext_getElem (by simp [marked]) fun _ _ _ => by simp [marked]

/-- Where no declaration repeats another one, all are first ones. -/
theorem Declaration.firsts_eq_self {declarations : List Declaration}
    (h : repeats declarations = []) : firsts declarations = declarations := by
  rw [repeats, List.map_eq_nil_iff, List.filter_eq_nil_iff] at h
  have hAll : (marked declarations).filter (fun pair => !pair.2) =
      marked declarations :=
    List.filter_eq_self.2 fun pair hMem => by simpa using h pair hMem
  rw [firsts, hAll, map_fst_marked]

theorem Stmt.declarationsAll_eq_flatMap (program : List Stmt) :
    declarationsAll program = program.flatMap declarations := by
  induction program with
  | nil => rfl
  | cons first rest ih => rw [declarationsAll, ih, List.flatMap_cons]

/-! ## Programs -/

namespace Analysis

open Typing

theorem stands_ofStmts_iff (program : List Stmt) (env : Env) :
    (ofStmts program).Stands env ↔ ChecksAll .empty program env := by
  rw [ofStmts, stands_stmts_iff]
  exact and_iff_right rfl

/-- Without errors each declaration has become a symbol. -/
theorem symbols_of_errors_eq_empty {program : List Stmt}
    (h : (ofStmts program).errors = #[]) :
    (ofStmts program).symbols.symbols =
      (Stmt.declarationsAll program).map Declaration.symbol := by
  have hLists : Lists (ofStmts program) (Stmt.declarationsAll program) :=
    Lists.stmts program Lists.empty
  have hRepeats : Declaration.repeats (Stmt.declarationsAll program) = [] := by
    have hNone := hLists.redeclared
    rw [redeclared, h] at hNone
    exact List.map_eq_nil_iff.1 hNone.symm
  rw [hLists.symbols, Declaration.firsts_eq_self hRepeats]

/-- Of the same statements in two orders that are both without errors, the
tables agree. -/
theorem agrees_of_perm {program other : List Stmt}
    (hPerm : program.Perm other) (hClean : (ofStmts program).errors = #[])
    (hOther : (ofStmts other).errors = #[]) :
    (ofStmts program).symbols.agrees (ofStmts other).symbols = true := by
  have hSymbols := symbols_of_errors_eq_empty hClean
  apply SymbolTable.agrees_of_perm
  · rw [hSymbols, symbols_of_errors_eq_empty hOther,
      Stmt.declarationsAll_eq_flatMap, Stmt.declarationsAll_eq_flatMap]
    exact (hPerm.flatMap_right Stmt.declarations).map Declaration.symbol
  · intro symbol hMem
    rw [hSymbols] at hMem
    obtain ⟨declaration, -, rfl⟩ := List.mem_map.1 hMem
    exact declaration.agrees_symbol

/-- **Declarations may come first.** Take a program in which the analysis
finds no errors. Bring its declarations and its blocks of declarations to
the front, in any order, and leave the other statements in theirs. Then the
analysis finds no errors either, and the table that it ends with agrees with
the one before. -/
theorem ofStmts_hoisted {program declarations : List Stmt}
    (hClean : (ofStmts program).errors = #[])
    (hPerm : declarations.Perm (program.filter Stmt.declaresOnly)) :
    (ofStmts (declarations ++
        program.filter (!Stmt.declaresOnly ·))).errors = #[] ∧
      (ofStmts (declarations ++
        program.filter (!Stmt.declaresOnly ·))).symbols.agrees
          (ofStmts program).symbols = true := by
  have hChecks : ChecksAll .empty program (ofStmts program).symbols.typeOf? :=
    (stands_ofStmts_iff program _).1 ⟨hClean, rfl⟩
  have hHoisted := hChecks.hoisted (fun _ => comesFirst_of_declaresOnly) hPerm
  obtain ⟨hErrors, -⟩ := (stands_ofStmts_iff _ _).2 hHoisted
  have hSame : (declarations ++
      program.filter (!Stmt.declaresOnly ·)).Perm program :=
    (hPerm.append_right _).trans (List.filter_append_perm _ program)
  exact ⟨hErrors, agrees_of_perm hSame hErrors hClean⟩

/-- In `long x; read(x); {double y; double z;} write(y);` the block comes to
the front, and then the declaration of `x`. -/
theorem ofStmts_hoisted_two :
    let long : Token := ⟨.long, "long", ⟨1, 1⟩⟩
    let double : Token := ⟨.double, "double", ⟨3, 2⟩⟩
    let x : Token := ⟨.identifier, "x", ⟨1, 6⟩⟩
    let y : Token := ⟨.identifier, "y", ⟨3, 9⟩⟩
    let z : Token := ⟨.identifier, "z", ⟨3, 19⟩⟩
    let block : Stmt := .block [.declare double y, .declare double z]
    let program : List Stmt :=
      [.declare long x, .read x, block, .write (.var y)]
    let hoisted : List Stmt :=
      [block, .declare long x, .read x, .write (.var y)]
    (ofStmts program).errors = #[] ∧
      [block, .declare long x].Perm (program.filter Stmt.declaresOnly) ∧
      (ofStmts hoisted).errors = #[] ∧
      (ofStmts hoisted).symbols.agrees (ofStmts program).symbols = true ∧
      (ofStmts hoisted).symbols ≠ (ofStmts program).symbols := by
  intro long double x y z block program hoisted
  have hClean : (ofStmts program).errors = #[] := by decide
  have hPerm : [block, .declare long x].Perm
      (program.filter Stmt.declaresOnly) := .swap ..
  obtain ⟨hErrors, hAgrees⟩ := ofStmts_hoisted hClean hPerm
  exact ⟨hClean, hPerm, hErrors, hAgrees, by decide⟩

end Analysis

end ImpFront
