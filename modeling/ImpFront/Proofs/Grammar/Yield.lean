import ImpFront.Proofs.Grammar.Completeness
import ImpFront.Proofs.Grammar.Shape

/-!
# An expression is read exactly as far as it is written

The rules of derivation build an expression and the list of its tokens at
once. Here the two are taken apart. `Expr.WrittenAs` says which tokens a
tree is written as, from left to right, and has no part in precedence;
`Expr.WellShaped` says which trees can be written without further
parentheses, and has no part in tokens. What both admit is what the grammar
derives (`isExpr_iff`).

Reading takes the longest phrase: it stops in front of a token that is no
operator (`level_stops`), and gives up where an operator has no operand
behind it, even if a shorter expression would have been there. So for each
list of tokens there is at most one expression to be read from its front,
and what comes behind it decides whether it is read.

## Main results

* `isExpr_iff` — derived is written and well-shaped.
* `level_stops` — behind an expression no operator is left.
* `verdict_expression_iff` — what is read, and what is left.
* `expression_exact` — the same for a reader, with all that it keeps.
-/

namespace ImpFront

open Grammar (Denotes IsExpr loosest le_loosest)

namespace Expr

/-! ## Tokens of a tree -/

/-- The tokens that the expression is written as, from left to right. A
literal is written as a constant that denotes it, and groups alone have
parentheses. -/
inductive WrittenAs : Expr → List Token → Prop
  | literal {token : Token} {value : Literal} (hValue : Denotes token value) :
      WrittenAs (.literal value) [token]
  | var (name : Token) : WrittenAs (.var name) [name]
  | group {opening closing : Token} {tokens : List Token} {inner : Expr}
      (hOpening : opening.kind = .leftParen) (hInner : WrittenAs inner tokens)
      (hClosing : closing.kind = .rightParen) :
      WrittenAs (.group inner) (opening :: (tokens ++ [closing]))
  | unary (operator : Token) {tokens : List Token} {operand : Expr}
      (hOperand : WrittenAs operand tokens) :
      WrittenAs (.unary operator operand) (operator :: tokens)
  | binary (operator : Token) {first second : List Token} {left right : Expr}
      (hLeft : WrittenAs left first) (hRight : WrittenAs right second) :
      WrittenAs (.binary left operator right) (first ++ operator :: second)

theorem WellShaped.within_loosest {expr : Expr} (h : expr.WellShaped) :
    expr.Within loosest := by
  cases h with
  | binary hOperator =>
      rintro operator ⟨⟩
      exact ⟨_, hOperator, le_loosest hOperator⟩
  | _ => exact within_of_operator?_eq_none rfl _

end Expr

namespace Grammar

/-! ## What the grammar derives -/

theorem IsExpr.writtenAs {k : Nat} {tokens : List Token} {expr : Expr}
    (h : IsExpr k tokens expr) : expr.WrittenAs tokens := by
  induction h with
  | constant hValue => exact .literal hValue
  | name => exact .var _
  | group hOpening _ hClosing ih => exact .group hOpening ih hClosing
  | unary _ _ ih => exact .unary _ ih
  | tighter _ ih => exact ih
  | binary _ _ _ ihLeft ihRight => exact .binary _ ihLeft ihRight

/-- An expression is one of every looser level as well. -/
theorem IsExpr.looser {j k : Nat} {tokens : List Token} {expr : Expr}
    (h : IsExpr j tokens expr) (hLe : j ≤ k) : IsExpr k tokens expr := by
  induction hLe with
  | refl => exact h
  | step _ ih => exact .tighter ih

theorem isExpr_of_writtenAs {k : Nat} {tokens : List Token} {expr : Expr}
    (hWritten : expr.WrittenAs tokens) (hShape : expr.WellShaped)
    (hWithin : expr.Within k) : IsExpr k tokens expr := by
  induction hWritten generalizing k with
  | literal hValue => exact (IsExpr.constant hValue).looser (Nat.zero_le k)
  | var name =>
      cases hShape with
      | var hName => exact (IsExpr.name hName).looser (Nat.zero_le k)
  | group hOpening _ hClosing ih =>
      cases hShape with
      | group hInner =>
          have hDerived := ih hInner hInner.within_loosest
          exact (IsExpr.group hOpening hDerived hClosing).looser
            (Nat.zero_le k)
  | unary operator _ ih =>
      cases hShape with
      | unary hOperator hOperand hTight =>
          have hUnary : operator.kind.isUnary = true := by
            rcases hOperator with hKind | hKind <;> rw [hKind] <;> rfl
          have hDerived :=
            ih hOperand (Expr.within_of_operator?_eq_none hTight 0)
          exact (IsExpr.unary hUnary hDerived).looser (Nat.zero_le k)
  | binary operator _ _ ihLeft ihRight =>
      cases hShape with
      | @binary j _ _ _ hOperator hLeft hLeftTight hRight hRightTight =>
          obtain ⟨i, hLevel, hLe⟩ := hWithin operator rfl
          obtain rfl : j + 1 = i :=
            Option.some.inj (hOperator.symm.trans hLevel)
          have hDerived := IsExpr.binary (ihLeft hLeft hLeftTight) hOperator
            (ihRight hRight hRightTight)
          exact hDerived.looser hLe

/-- What the grammar derives is what is written down and well-shaped. -/
theorem isExpr_iff {k : Nat} {tokens : List Token} {expr : Expr} :
    IsExpr k tokens expr ↔
      expr.WrittenAs tokens ∧ expr.WellShaped ∧ expr.Within k := by
  constructor
  · intro h
    exact ⟨h.writtenAs, h.wellShaped⟩
  · rintro ⟨hWritten, hShape, hWithin⟩
    exact isExpr_of_writtenAs hWritten hShape hWithin

/-! ## What is left -/

theorem stops_zero (rest : List Token) : Stops 0 rest := by
  intro token _ l hLevel
  cases hKind : token.kind <;> rw [hKind] at hLevel <;> cases hLevel <;>
    exact Nat.succ_pos _

/-- In front of an operator of no level nothing goes on. -/
theorem stops_loosest_iff {rest : List Token} :
    Stops loosest rest ↔
      ∀ token ∈ rest.head?, token.kind.looseness? = none := by
  constructor
  · intro h token hMem
    rw [Option.eq_none_iff_forall_ne_some]
    intro l hLevel
    have hLoose := h token hMem l hLevel
    exact Nat.not_lt.2 (le_loosest hLevel) hLoose
  · intro h token hMem l hLevel
    rw [h token hMem] at hLevel
    cases hLevel

theorem stops_succ {k : Nat} {token : Token} {rest : List Token}
    (h : Stops k (token :: rest))
    (hOther : token.kind.looseness? ≠ some (k + 1)) :
    Stops (k + 1) (token :: rest) := by
  rintro token' ⟨⟩ l hLevel
  have hLt := h token rfl l hLevel
  have hNe : l ≠ k + 1 := by
    rintro rfl
    exact hOther hLevel
  omega

mutual

/-- Behind an expression of a level stands no operator of that level or of a
tighter one: it would have been read. -/
theorem level_stops (k : Nat) (tokens : List Token) {expr : Expr}
    {rest : List Token} (h : (level k tokens).verdict = .clean expr rest) :
    Stops k rest := by
  match k with
  | 0 => exact stops_zero rest
  | k + 1 =>
      rw [verdict_level_succ] at h
      have hSound := level_sound k tokens
      cases hLeft : (level k tokens).verdict with
      | broken failure =>
          rw [hLeft] at h
          cases h
      | clean left left' =>
          rw [hLeft, Verdict.bind_clean] at h
          rw [hLeft] at hSound
          obtain ⟨phrase, hTokens, hPhrase⟩ := hSound
          obtain ⟨first, others, rfl, -⟩ := hPhrase.begins
          have hLess := length_lt_of_append hTokens
          exact chainVerdict_stops k left left' (level_stops k tokens hLeft) h
termination_by (tokens.length, k)

theorem chainVerdict_stops (k : Nat) (left : Expr) (tokens : List Token)
    {expr : Expr} {rest : List Token} (hStops : Stops k tokens)
    (h : chainVerdict k left tokens = .clean expr rest) :
    Stops (k + 1) rest := by
  match tokens with
  | [] =>
      rw [chainVerdict_nil] at h
      cases h
      exact nofun
  | token :: tokens' =>
      by_cases hOperator : token.kind.looseness? = some (k + 1)
      · rw [chainVerdict_operator left hOperator] at h
        have hSound := level_sound k tokens'
        cases hRight : (level k tokens').verdict with
        | broken failure =>
            rw [hRight] at h
            cases h
        | clean right right' =>
            rw [hRight, Verdict.bind_clean] at h
            rw [hRight] at hSound
            obtain ⟨phrase, hTokens, -⟩ := hSound
            have hLess : right'.length < (token :: tokens').length := by
              rw [hTokens, List.length_cons, List.length_append]
              omega
            exact chainVerdict_stops k _ right'
              (level_stops k tokens' hRight) h
      · rw [chainVerdict_stop left hOperator] at h
        cases h
        exact stops_succ hStops hOperator
termination_by (tokens.length, 0)

end

/-- What is read as an expression is written at the front of the tokens, is
well-shaped, and has no operator behind it; and all that is so is read. -/
theorem verdict_expression_iff {tokens rest : List Token} {expr : Expr} :
    (expression tokens).verdict = .clean expr rest ↔
      (∃ phrase, tokens = phrase ++ rest ∧ expr.WrittenAs phrase) ∧
        expr.WellShaped ∧
        ∀ token ∈ rest.head?, token.kind.looseness? = none := by
  constructor
  · intro h
    have hSound := expression_sound tokens
    rw [h] at hSound
    obtain ⟨phrase, hTokens, hPhrase⟩ := hSound
    obtain ⟨hWritten, hShape, -⟩ := isExpr_iff.1 hPhrase
    have hStops : Stops loosest rest := level_stops loosest tokens h
    exact ⟨⟨phrase, hTokens, hWritten⟩, hShape, stops_loosest_iff.1 hStops⟩
  · rintro ⟨⟨phrase, rfl, hWritten⟩, hShape, hRest⟩
    have hExpr := isExpr_iff.2 ⟨hWritten, hShape, hShape.within_loosest⟩
    exact verdict_level_of_isExpr hExpr (stops_loosest_iff.2 hRest)

end Grammar

/-! ## Readers -/

/-- The first `count` of the tokens are the whole of a well-shaped
expression: they are what it is written as, and the token behind them, if
there is one, is no operator with two operands. -/
structure Expr.Leads (expr : Expr) (count : Nat) (tokens : List Token) :
    Prop where
  within : count ≤ tokens.length
  written : expr.WrittenAs (tokens.take count)
  shaped : expr.WellShaped
  ended : ∀ token ∈ (tokens.drop count).head?, token.kind.looseness? = none

namespace Reader

/-- What a reader reads as an expression is what the grammar does, and all
that changes is which tokens are left. -/
theorem expression_eq_iff {reader next : Reader} {expr : Expr} :
    reader.expression = (some expr, next) ↔
      (Grammar.expression reader.unread).verdict = .clean expr next.unread ∧
        next = { reader with unread := next.unread } := by
  rw [expression]
  cases Grammar.expression reader.unread with
  | accept value left _ =>
      constructor
      · intro hRead
        cases hRead
        exact ⟨rfl, rfl⟩
      · rintro ⟨hClean, hNext⟩
        cases hClean
        exact congrArg (Prod.mk (some expr)) hNext.symm
  | reject _ _ _ =>
      constructor
      · intro hRead
        cases hRead
      · rintro ⟨hClean, -⟩
        cases hClean

theorem expression_eq_iff_leads {reader next : Reader} {expr : Expr}
    {count : Nat} (hCount : count ≤ reader.unread.length)
    (hNext : next = { reader with unread := reader.unread.drop count }) :
    reader.expression = (some expr, next) ↔ expr.Leads count reader.unread := by
  subst hNext
  rw [expression_eq_iff, Grammar.verdict_expression_iff]
  constructor
  · rintro ⟨⟨⟨phrase, hTokens, hWritten⟩, hShape, hRest⟩, -⟩
    have hTake : reader.unread.take count = phrase := by
      have hSplit := List.take_append_drop count reader.unread
      exact List.append_cancel_right (hSplit.trans hTokens)
    exact ⟨hCount, hTake ▸ hWritten, hShape, hRest⟩
  · intro h
    exact ⟨⟨⟨_, (List.take_append_drop count _).symm, h.written⟩, h.shaped,
      h.ended⟩, rfl⟩

/-- **An expression is read exactly as far as it is written.** From any
reader on, an expression is read and `count` tokens passed over if and only
if these tokens are what it is written as, it is well-shaped, and no
operator stands behind them. So there is at most one such expression and one
such number. And if any well-shaped expression is written down in front of a
token that is no operator, or at the end, then that very expression is read,
and nothing else of the reader changes. -/
theorem expression_exact (reader : Reader) :
    (∀ (count : Nat) (expr : Expr),
      (∃ next, reader.expression = (some expr, next) ∧
        count ≤ reader.unread.length ∧
        next.unread = reader.unread.drop count) ↔
      expr.Leads count reader.unread) ∧
    (∀ (count count' : Nat) (expr expr' : Expr),
      expr.Leads count reader.unread → expr'.Leads count' reader.unread →
      count = count' ∧ expr = expr') ∧
    ∀ (expr : Expr) (tokens rest : List Token), expr.WellShaped →
      expr.WrittenAs tokens →
      (∀ token ∈ rest.head?, token.kind.looseness? = none) →
      { reader with unread := tokens ++ rest }.expression =
        (some expr, { reader with unread := rest }) := by
  refine ⟨?exact, ?unique, ?written⟩
  case exact =>
    intro count expr
    constructor
    · rintro ⟨next, hRead, hCount, hUnread⟩
      have hNext := (expression_eq_iff.1 hRead).2
      rw [hUnread] at hNext
      exact (expression_eq_iff_leads hCount hNext).1 hRead
    · intro h
      exact ⟨_, (expression_eq_iff_leads h.within rfl).2 h, h.within, rfl⟩
  case unique =>
    intro count count' expr expr' h h'
    have hRead := (expression_eq_iff_leads h.within rfl).2 h
    have hRead' := (expression_eq_iff_leads h'.within rfl).2 h'
    rw [hRead, Prod.mk.injEq, Option.some.injEq] at hRead'
    obtain ⟨hExpr, hReader⟩ := hRead'
    have hLength := congrArg (fun next => next.unread.length) hReader
    simp only [List.length_drop] at hLength
    have hCount := h.within
    have hCount' := h'.within
    exact ⟨by omega, hExpr⟩
  case written =>
    intro expr tokens rest hShape hWritten hRest
    exact expression_eq_iff.2 ⟨Grammar.verdict_expression_iff.2
      ⟨⟨tokens, rfl, hWritten⟩, hShape, hRest⟩, rfl⟩

end Reader

end ImpFront
