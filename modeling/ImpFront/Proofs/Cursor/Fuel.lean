import ImpFront.Proofs.Cursor.Machine

/-!
# More fuel changes nothing

Fuel decides whether the machine has an outcome, and nothing else: where a
rule has one, it has the same one with more fuel. `Extends rule further`
says so of two rules, and everything that rules are put together with keeps
it. So it is an induction on the fuel, with one case for each rule that
calls itself.

## Main results

* `Extends.bind`, `Extends.ite`, `Extends.attempt` — what rules are put
  together with.
* `level_extends`, `statement_extends` — expressions and statements.
* `session_extends` — all that is done with one cursor.
-/

namespace ImpFront

open Grammar (loosest)

namespace Cursor

/-! ## Rules with more outcomes -/

section Extends

variable {α β : Type} {rule further : Rule α}

/-- Where the rule has an outcome, the other one has the same. -/
def Extends (rule further : Rule α) : Prop :=
  ∀ cursor outcome, rule.run.run cursor = some outcome →
    further.run.run cursor = some outcome

theorem Extends.refl (rule : Rule α) : Extends rule rule :=
  fun _ _ h => h

theorem Extends.stuck : Extends stuck further := by
  intro cursor outcome hRun
  cases hRun

theorem Extends.bind {next next' : α → Rule β} (hRule : Extends rule further)
    (hNext : ∀ value, Extends (next value) (next' value)) :
    Extends (rule >>= next) (further >>= next') := by
  intro cursor outcome hRun
  rw [ExceptT.run_bind, StateT.run_bind] at hRun ⊢
  cases hFirst : rule.run.run cursor with
  | none =>
      rw [hFirst] at hRun
      cases hRun
  | some first =>
      obtain ⟨result, cursor'⟩ := first
      rw [hFirst] at hRun
      rw [hRule cursor _ hFirst]
      cases result with
      | ok value => exact hNext value cursor' outcome hRun
      | error failure => exact hRun

theorem Extends.attempt (hRule : Extends rule further) :
    Extends (attempt rule) (attempt further) := by
  intro cursor outcome hRun
  have hRun' : (rule.run.run cursor).bind
      (fun first => some (.ok first.1, first.2)) = some outcome := hRun
  obtain ⟨first, hFirst, hOutcome⟩ := Option.bind_eq_some_iff.1 hRun'
  show (further.run.run cursor).bind
    (fun first => some (.ok first.1, first.2)) = some outcome
  rw [hRule cursor first hFirst]
  exact hOutcome

theorem Extends.ite {yes yes' no no' : Rule α} {condition : Prop}
    [Decidable condition] (hYes : Extends yes yes') (hNo : Extends no no') :
    Extends (if condition then yes else no)
      (if condition then yes' else no') := by
  by_cases h : condition
  · rw [if_pos h, if_pos h]
    exact hYes
  · rw [if_neg h, if_neg h]
    exact hNo

/-- A rule behind a step that needs no fuel. -/
theorem Extends.behind {next next' : α → Rule β}
    (hNext : ∀ value, Extends (next value) (next' value)) :
    Extends (rule >>= next) (rule >>= next') :=
  (Extends.refl rule).bind hNext

/-- A choice by a step that needs no fuel. -/
theorem Extends.choose {yes yes' no no' : Rule β} {condition : α → Prop}
    [∀ value, Decidable (condition value)] (hYes : Extends yes yes')
    (hNo : Extends no no') :
    Extends (rule >>= fun value => if condition value then yes else no)
      (rule >>= fun value => if condition value then yes' else no') :=
  .behind fun _ => .ite hYes hNo

/-- What is made of a value needs no fuel. -/
theorem Extends.andThen {next : α → Rule β} (hRule : Extends rule further) :
    Extends (rule >>= next) (further >>= next) :=
  hRule.bind fun value => .refl (next value)

end Extends

/-! ## Recovery -/

theorem skip_extends {fuel fuel' : Nat} (h : fuel ≤ fuel') :
    Extends (skip fuel) (skip fuel') := by
  induction fuel generalizing fuel' with
  | zero => exact .stuck
  | succ fuel ih =>
      cases fuel' with
      | zero => cases h
      | succ fuel' =>
          rw [skip, skip]
          apply Extends.choose (.refl _)
          apply Extends.choose (.refl _)
          apply Extends.choose (.refl _)
          exact .behind fun _ => ih (Nat.le_of_succ_le_succ h)

theorem synchronize_extends {fuel fuel' : Nat} (h : fuel ≤ fuel') :
    Extends (synchronize fuel) (synchronize fuel') :=
  .behind fun _ => skip_extends h

/-! ## Expressions -/

mutual

theorem level_extends (fuel fuel' k : Nat) (h : fuel ≤ fuel') :
    Extends (level fuel k) (level fuel' k) := by
  match fuel, fuel', k with
  | 0, _, _ => exact .stuck
  | fuel + 1, fuel' + 1, 0 =>
      have hLess : fuel ≤ fuel' := Nat.le_of_succ_le_succ h
      rw [level, level]
      have hOperand := level_extends fuel fuel' 0 hLess
      exact .choose (.behind fun _ => hOperand.andThen)
        (primary_extends fuel fuel' hLess)
  | fuel + 1, fuel' + 1, k + 1 =>
      have hLess : fuel ≤ fuel' := Nat.le_of_succ_le_succ h
      rw [level, level]
      apply (level_extends fuel fuel' k hLess).bind
      intro left
      exact chain_extends fuel fuel' k left hLess
termination_by fuel

theorem chain_extends (fuel fuel' k : Nat) (left : Expr) (h : fuel ≤ fuel') :
    Extends (chain fuel k left) (chain fuel' k left) := by
  match fuel, fuel' with
  | 0, _ => exact .stuck
  | fuel + 1, fuel' + 1 =>
      have hLess : fuel ≤ fuel' := Nat.le_of_succ_le_succ h
      rw [chain, chain]
      apply Extends.choose _ (.refl _)
      apply Extends.behind
      intro operator
      apply (level_extends fuel fuel' k hLess).bind
      intro right
      exact chain_extends fuel fuel' k _ hLess
termination_by fuel

theorem primary_extends (fuel fuel' : Nat) (h : fuel ≤ fuel') :
    Extends (primary fuel) (primary fuel') := by
  match fuel, fuel' with
  | 0, _ => exact .stuck
  | fuel + 1, fuel' + 1 =>
      have hLess : fuel ≤ fuel' := Nat.le_of_succ_le_succ h
      rw [primary, primary]
      have hInner := level_extends fuel fuel' loosest hLess
      apply Extends.behind
      intro token
      exact .ite (.refl _) (.ite (.behind fun _ => hInner.andThen) (.refl _))
termination_by fuel

end

theorem expression_extends {fuel fuel' : Nat} (h : fuel ≤ fuel') :
    Extends (expression fuel) (expression fuel') :=
  level_extends fuel fuel' _ h

/-! ## Statements -/

section Statement

variable {fuel fuel' : Nat}

theorem writeStatement_extends (h : fuel ≤ fuel') :
    Extends (writeStatement fuel) (writeStatement fuel') :=
  .behind fun _ => (expression_extends h).andThen

theorem ifHead_extends (h : fuel ≤ fuel') :
    Extends (ifHead fuel) (ifHead fuel') :=
  .behind fun _ => (expression_extends h).andThen

theorem whileHead_extends (h : fuel ≤ fuel') :
    Extends (whileHead fuel) (whileHead fuel') :=
  .behind fun _ => (expression_extends h).andThen

theorem expressionStatement_extends (h : fuel ≤ fuel') :
    Extends (expressionStatement fuel) (expressionStatement fuel') :=
  (expression_extends h).andThen

theorem assignStatement_extends (h : fuel ≤ fuel') :
    Extends (assignStatement fuel) (assignStatement fuel') := by
  apply Extends.behind
  intro name
  exact .choose (.behind fun _ => (expression_extends h).andThen) (.refl _)

theorem moreDeclarations_extends (type : Token) (stmts : Array Stmt)
    (h : fuel ≤ fuel') :
    Extends (moreDeclarations fuel type stmts)
      (moreDeclarations fuel' type stmts) := by
  induction fuel generalizing fuel' stmts with
  | zero => exact .stuck
  | succ fuel ih =>
      cases fuel' with
      | zero => cases h
      | succ fuel' =>
          rw [moreDeclarations, moreDeclarations]
          have hMore (stmts : Array Stmt) := ih stmts (Nat.le_of_succ_le_succ h)
          exact .choose (.behind fun _ => hMore _) (.refl _)

theorem varDeclaration_extends (type : Token) (h : fuel ≤ fuel') :
    Extends (varDeclaration fuel type) (varDeclaration fuel' type) :=
  .behind fun _ => (moreDeclarations_extends type _ h).andThen

end Statement

mutual

theorem statement_extends (fuel fuel' : Nat) (h : fuel ≤ fuel') :
    Extends (statement fuel) (statement fuel') := by
  match fuel, fuel' with
  | 0, _ => exact .stuck
  | fuel + 1, fuel' + 1 =>
      have hLess : fuel ≤ fuel' := Nat.le_of_succ_le_succ h
      rw [statement, statement]
      apply Extends.choose (.refl _)
      apply Extends.choose (writeStatement_extends hLess)
      apply Extends.choose (ifStatement_extends fuel fuel' hLess)
      apply Extends.choose (whileStatement_extends fuel fuel' hLess)
      apply Extends.choose (block_extends fuel fuel' hLess).andThen
      exact .choose (assignStatement_extends hLess)
        (expressionStatement_extends hLess)
termination_by fuel

theorem ifStatement_extends (fuel fuel' : Nat) (h : fuel ≤ fuel') :
    Extends (ifStatement fuel) (ifStatement fuel') := by
  match fuel, fuel' with
  | 0, _ => exact .stuck
  | fuel + 1, fuel' + 1 =>
      have hLess : fuel ≤ fuel' := Nat.le_of_succ_le_succ h
      have hStatement := statement_extends fuel fuel' hLess
      rw [ifStatement, ifStatement]
      apply (ifHead_extends hLess).bind
      intro condition
      apply hStatement.bind
      intro thenPart
      exact .choose hStatement.andThen (.refl _)
termination_by fuel

theorem whileStatement_extends (fuel fuel' : Nat) (h : fuel ≤ fuel') :
    Extends (whileStatement fuel) (whileStatement fuel') := by
  match fuel, fuel' with
  | 0, _ => exact .stuck
  | fuel + 1, fuel' + 1 =>
      have hLess : fuel ≤ fuel' := Nat.le_of_succ_le_succ h
      rw [whileStatement, whileStatement]
      apply (whileHead_extends hLess).bind
      intro condition
      exact (statement_extends fuel fuel' hLess).andThen
termination_by fuel

theorem block_extends (fuel fuel' : Nat) (h : fuel ≤ fuel') :
    Extends (block fuel) (block fuel') := by
  match fuel, fuel' with
  | 0, _ => exact .stuck
  | fuel + 1, fuel' + 1 =>
      rw [block, block]
      exact (sequence_extends fuel fuel' true #[]
        (Nat.le_of_succ_le_succ h)).andThen
termination_by fuel

theorem declaration_extends (fuel fuel' : Nat) (h : fuel ≤ fuel') :
    Extends (declaration fuel) (declaration fuel') := by
  match fuel, fuel' with
  | 0, _ => exact .stuck
  | fuel + 1, fuel' + 1 =>
      have hLess : fuel ≤ fuel' := Nat.le_of_succ_le_succ h
      rw [declaration, declaration]
      have hType (type : Token) := varDeclaration_extends type hLess
      exact .choose (.behind hType) (statement_extends fuel fuel' hLess)
termination_by fuel

theorem sequence_extends (fuel fuel' : Nat) (inBlock : Bool)
    (stmts : Array Stmt) (h : fuel ≤ fuel') :
    Extends (sequence fuel inBlock stmts) (sequence fuel' inBlock stmts) := by
  match fuel, fuel' with
  | 0, _ => exact .stuck
  | fuel + 1, fuel' + 1 =>
      have hLess : fuel ≤ fuel' := Nat.le_of_succ_le_succ h
      have hMore (stmts : Array Stmt) :=
        sequence_extends fuel fuel' inBlock stmts hLess
      rw [sequence, sequence]
      apply Extends.choose (.refl _)
      apply Extends.behind
      intro cursor
      apply (declaration_extends fuel fuel' hLess).attempt.bind
      intro result
      cases result with
      | ok stmt => exact .behind fun _ => hMore (stmts.push stmt)
      | error failure =>
          apply (synchronize_extends hLess).bind
          intro _
          exact .behind fun _ => hMore stmts
termination_by fuel

end

/-! ## Sessions -/

theorem parse_extends {fuel fuel' : Nat} (h : fuel ≤ fuel') :
    Extends (parse fuel) (parse fuel') :=
  (sequence_extends fuel fuel' false #[] h).andThen

theorem session_extends {fuel fuel' : Nat} (count : Nat) (h : fuel ≤ fuel') :
    Extends (session fuel count) (session fuel' count) := by
  induction count with
  | zero => exact (parse_extends h).andThen
  | succ count ih =>
      apply (expression_extends h).attempt.bind
      intro first
      exact ih.andThen

end Cursor

end ImpFront
