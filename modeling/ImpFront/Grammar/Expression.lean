import ImpFront.Expr
import ImpFront.Grammar.Outcome

/-!
# Expressions read from tokens

Binary operators stand at six levels, from multiplication at one to
disjunction at six; `Token.Kind.looseness?` says which. An expression of a
level is an operand of the level below, followed by any number of
operators of the level, each with an operand of the level below; so the
operators of a level associate to the left. Level zero holds the prefix
operators, which bind tightest, and the operands themselves: constants,
names, and expressions in parentheses.

One token of look-ahead decides every choice. A chain of operators is read
in a loop. The rules end because each reads a token before it calls itself
again at the same or a looser level.

## Main results

* `expression_suffix` — what an expression leaves is the end of what it was
  read from.
-/

namespace ImpFront.Grammar

open Token (Kind)

/-- The level of an operator that binds loosest. -/
def loosest : Nat := 6

/-- What a constant denotes, or why it cannot be read; `none` for tokens
that are no constants. -/
def constant? (token : Token) : Option (Except SyntaxFault Literal) :=
  match token.kind with
  | .integer =>
    some (match Number.integer? token.lexeme with
      | some n => .ok (.integer n)
      | none => .error .integerTooLarge)
  | .real =>
    some (match Number.real? token.lexeme with
      | some x => .ok (.real x)
      | none => .error .realUnreadable)
  | .string => some (.ok (.string token.lexeme))
  | .boolean => some (.ok (.boolean (token.lexeme = "true")))
  | _ => none

/-- A constant or a name, read from the front of a list. A constant that
cannot be read is passed over all the same. -/
def atom : (tokens : List Token) → Outcome Expr tokens.length
  | [] => fail .operand []
  | token :: rest =>
    if token.kind = .identifier then
      .accept (.var token) rest (length_lt_cons token rest)
    else
      match constant? token with
      | some (.ok value) =>
        .accept (.literal value) rest (length_lt_cons token rest)
      | some (.error fault) =>
        .reject ⟨fault, token :: rest⟩ rest (length_le_cons token rest)
      | none => fail .operand (token :: rest)

mutual

/-- An expression whose binary operators stand at most at the level
given. -/
def level : Nat → (tokens : List Token) → Outcome Expr tokens.length
  | 0, [] => fail .operand []
  | 0, token :: rest =>
    if token.kind.isUnary then
      match level 0 rest with
      | .accept operand rest' h =>
        .accept (.unary token operand) rest' (Nat.lt_succ_of_lt h)
      | .reject failure rest' h => .reject failure rest' (Nat.le_succ_of_le h)
    else if token.kind = .leftParen then
      match level loosest rest with
      | .accept inner rest' h =>
        ((expect .rightParen .groupClosing rest').map fun _ =>
          Expr.group inner).weaken (Nat.le_of_lt (Nat.lt_succ_of_lt h))
      | .reject failure rest' h => .reject failure rest' (Nat.le_succ_of_le h)
    else atom (token :: rest)
  | k + 1, tokens =>
    match level k tokens with
    | .accept left rest h => chain k left rest h
    | .reject failure rest h => .reject failure rest h
termination_by k tokens => (tokens.length, k)

/-- The operators of level `k + 1` that follow a left operand, each with
its right operand. -/
def chain {bound : Nat} (k : Nat) (left : Expr) (tokens : List Token)
    (shorter : tokens.length < bound) : Outcome Expr bound :=
  match tokens with
  | [] => .accept left [] shorter
  | token :: rest =>
    if token.kind.looseness? = some (k + 1) then
      match level k rest with
      | .accept right rest' h =>
        chain k (.binary left token right) rest'
          (Nat.lt_trans (Nat.lt_succ_of_lt h) shorter)
      | .reject failure rest' h =>
        .reject failure rest'
          (Nat.le_trans (Nat.le_succ_of_le h) (Nat.le_of_lt shorter))
    else .accept left (token :: rest) shorter
termination_by (tokens.length, 0)

end

/-- An expression. -/
def expression (tokens : List Token) : Outcome Expr tokens.length :=
  level loosest tokens

/-! ## What is left -/

theorem atom_suffix (tokens : List Token) : (atom tokens).rest <:+ tokens := by
  cases tokens with
  | nil => exact List.suffix_rfl
  | cons token rest =>
    rw [atom]
    repeat' split
    · exact List.suffix_cons token rest
    · exact List.suffix_cons token rest
    · exact List.suffix_cons token rest
    · exact List.suffix_rfl

mutual

theorem level_suffix (k : Nat) (tokens : List Token) :
    (level k tokens).rest <:+ tokens := by
  match k, tokens with
  | 0, [] => rw [level]; exact List.suffix_rfl
  | 0, token :: rest =>
    have hCons := List.suffix_cons token rest
    rw [level]
    split
    · have ih := level_suffix 0 rest
      split <;> rename_i h <;> rw [h] at ih <;> exact ih.trans hCons
    · split
      · have ih := level_suffix loosest rest
        split <;> rename_i h <;> rw [h] at ih
        · simp only [Outcome.rest_weaken, Outcome.rest_map]
          exact (expect_suffix ..).trans (ih.trans hCons)
        · exact ih.trans hCons
      · exact atom_suffix _
  | k + 1, tokens =>
    have ih := level_suffix k tokens
    rw [level]
    split <;> rename_i h <;> rw [h] at ih
    · exact (chain_suffix ..).trans ih
    · exact ih
termination_by (tokens.length, k)

theorem chain_suffix {bound : Nat} (k : Nat) (left : Expr)
    (tokens : List Token) (shorter : tokens.length < bound) :
    (chain k left tokens shorter).rest <:+ tokens := by
  match tokens with
  | [] => rw [chain]; exact List.suffix_rfl
  | token :: rest =>
    have hCons := List.suffix_cons token rest
    rw [chain]
    split
    · have ih := level_suffix k rest
      split <;> rename_i h <;> rw [h] at ih
      · exact (chain_suffix ..).trans (ih.trans hCons)
      · exact ih.trans hCons
    · exact List.suffix_rfl
termination_by (tokens.length, 0)

end

theorem expression_suffix (tokens : List Token) :
    (expression tokens).rest <:+ tokens :=
  level_suffix loosest tokens

end ImpFront.Grammar
