import ImpFront.Typing.Analysis

/-!
# One scope, and one pass over it

An analysis opens no scope and closes none. Blocks, branches and loops are
only the order in which it comes to declarations, assignments, reads and
expressions, and it makes no difference if these are written one after
another instead. Nor does it matter where a program is cut, if the pieces
are given to the same analysis in their order.

Along the way nothing is taken back. What is known after a while is the
beginning of what is known at the end, for the table as well as for the
errors: `Continues` says so, and each step of an analysis keeps to it.

## Main results

* `stmts_linearAll` — a program means what its simple statements mean.
* `foldl_stmts` — a program means what its pieces mean.
* `Continues.stmts` — a table and its errors only grow.
* `flat_scope` — all of this together.
-/

namespace ImpFront

/-! ## Programs without structure -/

namespace Stmt

mutual

/-- What a statement comes to if it is written without blocks, branches
and loops: its conditions and its simple statements, in their order. An
expression that is written out is just looked at. -/
def linear : Stmt → List Stmt
  | declare type name => [declare type name]
  | expression value => [expression value]
  | assign name operator value => [assign name operator value]
  | read name => [read name]
  | write value => [expression value]
  | block members => linearAll members
  | ifThen condition thenPart => expression condition :: linear thenPart
  | ifThenElse condition thenPart elsePart =>
    expression condition :: (linear thenPart ++ linear elsePart)
  | whileLoop condition body => expression condition :: linear body

/-- What statements come to one after another. -/
def linearAll : List Stmt → List Stmt
  | [] => []
  | first :: rest => linear first ++ linearAll rest

end

/-- Is the statement without parts that are statements, and without
output? -/
def isSimple : Stmt → Bool
  | declare .. | expression .. | assign .. | read .. => true
  | write .. | block .. | ifThen .. | ifThenElse .. | whileLoop .. => false

mutual

theorem isSimple_of_mem_linear (statement : Stmt) :
    ∀ simple ∈ linear statement, simple.isSimple = true := by
  match statement with
  | declare .. | expression .. | assign .. | read .. | write .. =>
      exact List.forall_mem_singleton.2 rfl
  | block members => exact isSimple_of_mem_linearAll members
  | ifThen condition thenPart =>
      exact List.forall_mem_cons.2 ⟨rfl, isSimple_of_mem_linear thenPart⟩
  | ifThenElse condition thenPart elsePart =>
      refine List.forall_mem_cons.2 ⟨rfl, List.forall_mem_append.2 ?_⟩
      exact ⟨isSimple_of_mem_linear thenPart, isSimple_of_mem_linear elsePart⟩
  | whileLoop condition body =>
      exact List.forall_mem_cons.2 ⟨rfl, isSimple_of_mem_linear body⟩

/-- No structure is left. -/
theorem isSimple_of_mem_linearAll (program : List Stmt) :
    ∀ simple ∈ linearAll program, simple.isSimple = true := by
  match program with
  | [] => exact List.forall_mem_nil _
  | first :: rest =>
      refine List.forall_mem_append.2 ?_
      exact ⟨isSimple_of_mem_linear first, isSimple_of_mem_linearAll rest⟩

end

end Stmt

namespace Analysis

/-! ## One after another -/

theorem stmts_append (analysis : Analysis) (first second : List Stmt) :
    analysis.stmts (first ++ second) =
      (analysis.stmts first).stmts second := by
  simp only [stmts_eq_foldl, List.foldl_append]

/-- The pieces of a program, looked at one after another, are looked at
like the program. -/
theorem foldl_stmts (analysis : Analysis) (pieces : List (List Stmt)) :
    pieces.foldl stmts analysis = analysis.stmts pieces.flatten := by
  induction pieces generalizing analysis with
  | nil => rfl
  | cons piece pieces ih =>
      rw [List.foldl_cons, List.flatten_cons, stmts_append, ih]

mutual

/-- A statement is looked at like the simple statements that it comes
to. -/
theorem stmts_linear (analysis : Analysis) (statement : Stmt) :
    analysis.stmts statement.linear = analysis.stmt statement := by
  match statement with
  | .declare .. | .expression .. | .assign .. | .read .. | .write .. => rfl
  | .block members => exact stmts_linearAll analysis members
  | .ifThen condition thenPart =>
      exact stmts_linear (analysis.expression condition) thenPart
  | .ifThenElse condition thenPart elsePart =>
      show (analysis.expression condition).stmts
        (thenPart.linear ++ elsePart.linear) = _
      rw [stmts_append, stmts_linear _ thenPart, stmts_linear _ elsePart]
      rfl
  | .whileLoop condition body =>
      exact stmts_linear (analysis.expression condition) body

theorem stmts_linearAll (analysis : Analysis) (program : List Stmt) :
    analysis.stmts (Stmt.linearAll program) = analysis.stmts program := by
  match program with
  | [] => rfl
  | first :: rest =>
      rw [Stmt.linearAll, stmts_append, stmts_linear analysis first,
        stmts_linearAll _ rest, stmts]

end

/-! ## Nothing is taken back -/

/-- The later analysis knows what the earlier one knew, and what it knows
besides comes behind that. -/
structure Continues (earlier later : Analysis) : Prop where
  symbols : earlier.symbols.symbols <+: later.symbols.symbols
  errors : earlier.errors.toList <+: later.errors.toList

namespace Continues

theorem refl (analysis : Analysis) : Continues analysis analysis :=
  ⟨List.prefix_rfl, List.prefix_rfl⟩

theorem trans {first second third : Analysis} (h : Continues first second)
    (h' : Continues second third) : Continues first third :=
  ⟨h.symbols.trans h'.symbols, h.errors.trans h'.errors⟩

/-! ### Steps -/

section Step

variable (analysis : Analysis)

theorem report (line : Nat) (fault : SemanticFault) :
    Continues analysis (analysis.report line fault) := by
  refine ⟨List.prefix_rfl, ?_⟩
  rw [Analysis.report, Array.toList_push]
  exact List.prefix_append _ _

theorem absorb (found : Inference) :
    Continues analysis (analysis.absorb found) := by
  refine ⟨List.prefix_rfl, ?_⟩
  rw [Analysis.absorb, Array.toList_append]
  exact List.prefix_append _ _

theorem expression (value : Expr) :
    Continues analysis (analysis.expression value) :=
  absorb analysis _

theorem declare (word name : Token) :
    Continues analysis (analysis.declare word name) := by
  rw [Analysis.declare]
  split
  · exact refl analysis
  · split
    · next symbols hDeclare =>
      refine ⟨?_, List.prefix_rfl⟩
      rw [SymbolTable.symbols_declare? hDeclare]
      exact List.prefix_append _ _
    · exact report analysis _ _

theorem assign (name : Token) (value : Expr) :
    Continues analysis (analysis.assign name value) := by
  simp only [Analysis.assign]
  split
  · exact (report analysis _ _).trans (absorb _ _)
  · exact absorb analysis _
  · split
    · exact absorb analysis _
    · exact (absorb analysis _).trans (report _ _ _)

theorem read (name : Token) : Continues analysis (analysis.read name) := by
  rw [Analysis.read]
  split
  · exact refl analysis
  · exact report analysis _ _

end Step

/-! ### Whole runs -/

mutual

theorem stmt (analysis : Analysis) (statement : Stmt) :
    Continues analysis (analysis.stmt statement) := by
  match statement with
  | .declare word name => exact declare analysis word name
  | .assign name operator value => exact assign analysis name value
  | .read name => exact read analysis name
  | .expression value | .write value => exact expression analysis value
  | .block members => exact stmts analysis members
  | .ifThen condition part | .whileLoop condition part =>
      exact (expression analysis condition).trans (stmt _ part)
  | .ifThenElse condition thenPart elsePart =>
      have hThen := (expression analysis condition).trans (stmt _ thenPart)
      exact hThen.trans (stmt _ elsePart)

/-- The table and the errors of an analysis only grow. -/
theorem stmts (analysis : Analysis) (program : List Stmt) :
    Continues analysis (analysis.stmts program) := by
  match program with
  | [] => exact refl analysis
  | first :: rest => exact (stmt analysis first).trans (stmts _ rest)

end

end Continues

/-- **There is one flat scope.** From any analysis on, a program leads to
the same table and the same errors as its simple statements do, written
one after another without structure. If it is cut into pieces, these lead
there too, and each state on the way is the beginning of the last. -/
theorem flat_scope (analysis : Analysis) (program : List Stmt)
    (pieces : List (List Stmt)) :
    (∀ simple ∈ Stmt.linearAll program, simple.isSimple = true) ∧
    analysis.stmts (Stmt.linearAll program) = analysis.stmts program ∧
    pieces.foldl stmts analysis = analysis.stmts pieces.flatten ∧
    ∀ n, Continues ((pieces.take n).foldl stmts analysis)
      (pieces.foldl stmts analysis) := by
  refine ⟨Stmt.isSimple_of_mem_linearAll program,
    stmts_linearAll analysis program, foldl_stmts analysis pieces, ?_⟩
  intro n
  have hSplit : pieces.foldl stmts analysis =
      ((pieces.take n).foldl stmts analysis).stmts
        (pieces.drop n).flatten := by
    rw [← foldl_stmts, ← List.foldl_append, List.take_append_drop]
  rw [hSplit]
  exact .stmts _ _

end Analysis

end ImpFront
