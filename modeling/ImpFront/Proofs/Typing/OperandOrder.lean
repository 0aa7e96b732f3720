import ImpFront.Proofs.Typing.FlatScope

/-!
# Chains are looked at operand by operand

The types of a chain of operators are found in a loop along its left spine,
and the errors of an operand are collected before it is its turn to be
reported. The rules that this stands for know nothing of a spine: at an
operator the left operand comes first, then the right one, each with all
that it reports, and then the operator itself, if it joins two types that
are known and differ. `byRules` follows them by recursion on the tree, and
hands the analysis from one step to the next.

The two agree from every analysis on, in the type that they find and in the
analysis that they leave. All of it follows from what an operator adds
behind its operands (`infer_binary`): the table does not change between
them, and errors that are added in two portions are added in their order.

## Main results

* `infer_binary` — an operator comes behind its two operands.
* `infer_eq_byRules` — the loop follows the rules.
* `infer_eq_foldl_spine` — the rules, taken along the spine, are the loop.
* `infer_by_rules` — both, and what stays as it was.
-/

namespace ImpFront

open ImpFront.Expr (isBinary_spineOnto)

namespace Analysis

/-! ## Loop and rules -/

/-- The type of an expression, if it is known, and the analysis behind the
expression. -/
def infer (analysis : Analysis) (expr : Expr) : Option NumType × Analysis :=
  ((Inference.ofExpr analysis.symbols expr).type?, analysis.expression expr)

/-- What an operator makes of the type of its left operand, and of the type
of the right one with the analysis behind it. -/
def operate (left? : Option NumType) (operator : Token)
    (right : Option NumType × Analysis) : Option NumType × Analysis :=
  match left?, right.1 with
  | some l, some r =>
    if l = r then (some l, right.2)
    else (some l, right.2.report operator.line
      (.incompatibleOperation operator.lexeme l r))
  | _, _ => (none, right.2)

/-- Look at an expression by the rules for its parts, one after another. -/
def byRules (analysis : Analysis) : Expr → Option NumType × Analysis
  | .binary left operator right =>
    let first := byRules analysis left
    operate first.1 operator (byRules first.2 right)
  | .unary _ operand => byRules analysis operand
  | .group inner => byRules analysis inner
  | .literal value => (value.type?, analysis)
  | .var name =>
    match analysis.symbols.typeOf? name.lexeme with
    | some type => (some type, analysis)
    | none =>
      (none, analysis.report name.line (.usedUndeclared name.lexeme))

/-- Go on with an operator of a chain and its right operand, behind what
is known of all that stands to the left. -/
def follow (known : Option NumType × Analysis) (pair : Token × Expr) :
    Option NumType × Analysis :=
  operate known.1 pair.1 (known.2.infer pair.2)

/-! ## One operator -/

section Infer

variable (analysis : Analysis)

theorem absorb_absorb (first second : Inference) (type? : Option NumType) :
    (analysis.absorb first).absorb second =
      analysis.absorb ⟨type?, first.errors ++ second.errors⟩ := by
  simp [absorb, Array.append_assoc]

theorem report_absorb (found : Inference) (type? : Option NumType) (line : Nat)
    (fault : SemanticFault) :
    (analysis.absorb found).report line fault =
      analysis.absorb ⟨type?, found.errors.push ⟨line, fault⟩⟩ := by
  simp [absorb, report]

/-- Combined errors are those of the operands and of the operator, in this
order. -/
theorem absorb_combine (left right : Inference) (operator : Token) :
    ((left.combine operator right).type?,
        analysis.absorb (left.combine operator right)) =
      operate left.type? operator
        (right.type?, (analysis.absorb left).absorb right) := by
  rw [absorb_absorb analysis left right none]
  simp only [Inference.combine, operate]
  cases left.type? with
  | none => rfl
  | some l =>
      cases right.type? with
      | none => rfl
      | some r =>
          by_cases hSame : l = r
          · simp only [if_pos hSame]
            rfl
          · simp only [if_neg hSame]
            rw [report_absorb analysis _ (some l)]

/-- An operator comes behind its two operands. -/
theorem infer_binary (left : Expr) (operator : Token) (right : Expr) :
    analysis.infer (.binary left operator right) =
      operate (analysis.infer left).1 operator
        ((analysis.infer left).2.infer right) := by
  have hCombine := absorb_combine analysis
    (Inference.ofExpr analysis.symbols left)
    (Inference.ofExpr analysis.symbols right) operator
  rw [← Inference.ofExpr_binary] at hCombine
  exact hCombine

theorem infer_literal (value : Literal) :
    analysis.infer (.literal value) = (value.type?, analysis) := by
  simp [infer, expression, absorb]

theorem infer_var (name : Token) :
    analysis.infer (.var name) = analysis.byRules (.var name) := by
  rw [infer, byRules, expression, Inference.ofExpr_var, Inference.ofVar]
  cases analysis.symbols.typeOf? name.lexeme with
  | none => simp [absorb, report]
  | some type => simp [absorb]

end Infer

/-! ## The whole expression -/

/-- The loop finds what the rules find, and leaves what they leave. -/
theorem infer_eq_byRules (analysis : Analysis) (expr : Expr) :
    analysis.infer expr = analysis.byRules expr := by
  induction expr generalizing analysis with
  | binary left operator right ihLeft ihRight =>
      rw [infer_binary, ihLeft, ihRight, byRules]
  | unary operator operand ih => exact ih analysis
  | group inner ih => exact ih analysis
  | literal value => exact infer_literal analysis value
  | var name => exact infer_var analysis name

/-- What is pending is gone through behind the spine of the left operand. -/
theorem foldl_spineOnto (analysis : Analysis) (expr : Expr)
    (pending : List (Token × Expr)) :
    (expr.spineOnto pending).2.foldl follow
        (analysis.infer (expr.spineOnto pending).1) =
      pending.foldl follow (analysis.infer expr) := by
  induction expr generalizing pending with
  | binary left operator right ih _ =>
      rw [Expr.spineOnto, ih, List.foldl_cons, infer_binary]
      rfl
  | _ => rfl

/-- An expression is its leftmost operand, and then each operator of the
spine with its right operand. -/
theorem infer_eq_foldl_spine (analysis : Analysis) (expr : Expr) :
    analysis.infer expr =
      expr.spine.2.foldl follow (analysis.infer expr.spine.1) :=
  (foldl_spineOnto analysis expr []).symm

/-- **Chains are looked at operand by operand.** From any analysis on, an
expression has the type that the rules give it and leaves the analysis that
they leave: the same errors in the same order. It can also be looked at
from its leftmost operand, which is no chain itself, along the operators of
its spine. In either case the table stays as it was, and the errors that
were there stay in front. -/
theorem infer_by_rules (analysis : Analysis) (expr : Expr) :
    ((Inference.ofExpr analysis.symbols expr).type?,
        analysis.expression expr) = analysis.byRules expr ∧
      expr.spine.1.isBinary = false ∧
      expr.spine.2.foldl follow (analysis.infer expr.spine.1) =
        analysis.byRules expr ∧
      (analysis.byRules expr).2.symbols = analysis.symbols ∧
      analysis.errors.toList <+: (analysis.byRules expr).2.errors.toList := by
  have hRules := infer_eq_byRules analysis expr
  refine ⟨hRules, isBinary_spineOnto expr [], ?_, ?_, ?_⟩
  · rw [← infer_eq_foldl_spine, hRules]
  · rw [← hRules]
    rfl
  · rw [← hRules]
    exact (Continues.expression analysis expr).errors

end Analysis

end ImpFront
