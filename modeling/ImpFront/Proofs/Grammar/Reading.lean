import ImpFront.Grammar.Program

/-!
# The rules of the grammar as equations

The result of a rule carries a bound for the number of tokens left, since
that is what lets rules call each other; and the loops in the rules are
given bounds to hand on. A *reading* is the same result without bounds:
the failures that were mended on the way, and then either a value or one
more failure, with the tokens left. Seen through readings each rule has
equations that follow the grammar, and they say everything that the rule
does.

## Main results

* `reading_level_succ`, `chainReading_operator` — an expression of a level
  is an operand of the level below and the operators behind it.
* `reading_statement_if`, `branchesReading` — a condition, and the `else`
  that may follow it.
* `reading_members_cons` — a sequence, member by member.
-/

namespace ImpFront.Grammar

open Token (Kind)

/-- The result of a rule, behind the failures that were mended before. -/
inductive Reading (α : Type)
  | accept (mended : List Failure) (value : α) (rest : List Token)
  | reject (mended : List Failure) (failure : Failure) (rest : List Token)

namespace Reading

variable {α β : Type}

/-- All failures, the one that ended the rule included. -/
def failures : Reading α → List Failure
  | accept mended _ _ => mended
  | reject mended failure _ => mended ++ [failure]

/-- The tokens left. -/
def rest : Reading α → List Token
  | accept _ _ rest => rest
  | reject _ _ rest => rest

/-- The same result behind more failures. -/
def after (failures : List Failure) : Reading α → Reading α
  | accept mended value rest => accept (failures ++ mended) value rest
  | reject mended failure rest => reject (failures ++ mended) failure rest

/-- Go on behind a rule that accepts. -/
def bind (reading : Reading α) (next : α → List Token → Reading β) :
    Reading β :=
  match reading with
  | accept mended value rest => (next value rest).after mended
  | reject mended failure rest => reject mended failure rest

/-- Change the value of an accepting rule. -/
def map (f : α → β) (reading : Reading α) : Reading β :=
  reading.bind fun value rest => accept [] (f value) rest

/-- Go on behind a rule in any case, with its failure mended. -/
def mend (reading : Reading α) (accepted : α → List Token → Reading β)
    (rejected : List Token → Reading β) : Reading β :=
  match reading with
  | accept mended value rest => (accepted value rest).after mended
  | reject mended failure rest =>
    (rejected rest).after (mended ++ [failure])

@[simp] theorem after_nil (reading : Reading α) : reading.after [] = reading := by
  cases reading <;> rfl

@[simp] theorem after_after (first second : List Failure)
    (reading : Reading α) :
    (reading.after second).after first = reading.after (first ++ second) := by
  cases reading <;> simp only [after, List.append_assoc]

theorem bind_after (failures : List Failure) (reading : Reading α)
    (next : α → List Token → Reading β) :
    (reading.after failures).bind next = (reading.bind next).after failures := by
  cases reading with
  | accept mended value rest => exact (after_after failures mended _).symm
  | reject mended failure rest => rfl

theorem bind_assoc {γ : Type} (reading : Reading α)
    (next : α → List Token → Reading β) (last : β → List Token → Reading γ) :
    (reading.bind next).bind last =
      reading.bind fun value rest => (next value rest).bind last := by
  cases reading with
  | accept mended value rest => exact bind_after mended (next value rest) last
  | reject mended failure rest => rfl

theorem map_after (f : α → β) (failures : List Failure)
    (reading : Reading α) :
    (reading.after failures).map f = (reading.map f).after failures :=
  bind_after failures reading _

@[simp] theorem rest_after (failures : List Failure) (reading : Reading α) :
    (reading.after failures).rest = reading.rest := by
  cases reading <;> rfl

@[simp] theorem failures_after (failures : List Failure) (reading : Reading α) :
    (reading.after failures).failures = failures ++ reading.failures := by
  cases reading with
  | accept mended value rest => rfl
  | reject mended failure rest => exact List.append_assoc ..

@[simp] theorem bind_accept (value : α) (rest : List Token)
    (next : α → List Token → Reading β) :
    (accept [] value rest).bind next = next value rest := after_nil _

@[simp] theorem bind_reject (mended : List Failure) (failure : Failure)
    (rest : List Token) (next : α → List Token → Reading β) :
    (reject mended failure rest).bind next = reject mended failure rest := rfl

@[simp] theorem map_accept (f : α → β) (mended : List Failure) (value : α)
    (rest : List Token) :
    (accept mended value rest).map f = accept mended (f value) rest := by
  show accept (mended ++ []) (f value) rest = _
  rw [List.append_nil]

@[simp] theorem map_reject (f : α → β) (mended : List Failure)
    (failure : Failure) (rest : List Token) :
    (reject mended failure rest : Reading α).map f =
      reject mended failure rest := rfl

theorem map_map {γ : Type} (f : α → β) (g : β → γ) (reading : Reading α) :
    (reading.map f).map g = reading.map fun value => g (f value) := by
  cases reading <;> simp

theorem map_mend {γ : Type} (f : β → γ) (reading : Reading α)
    (accepted : α → List Token → Reading β)
    (rejected : List Token → Reading β) :
    (reading.mend accepted rejected).map f =
      reading.mend (fun value rest => (accepted value rest).map f)
        (fun rest => (rejected rest).map f) := by
  cases reading <;> exact map_after f _ _

end Reading

open Reading (bind_after map_after)

/-! ## Outcomes -/

section Outcome

variable {α β : Type} {bound bound' : Nat}

/-- A rule that holds no other statements mends nothing. -/
def Outcome.reading : Outcome α bound → Reading α
  | accept value rest _ => .accept [] value rest
  | reject failure rest _ => .reject [] failure rest

/-- A rule that accepts has read something. -/
theorem Outcome.length_lt_of_reading {outcome : Outcome α bound}
    {mended : List Failure} {value : α} {rest : List Token}
    (h : outcome.reading = .accept mended value rest) : rest.length < bound := by
  cases outcome with
  | accept value rest hLess =>
      cases h
      exact hLess
  | reject failure rest hLe => cases h

@[simp] theorem reading_weaken (h : bound ≤ bound')
    (outcome : Outcome α bound) :
    (outcome.weaken h).reading = outcome.reading := by
  cases outcome <;> rfl

@[simp] theorem reading_map (f : α → β) (outcome : Outcome α bound) :
    (outcome.map f).reading = outcome.reading.map f := by
  cases outcome <;> rfl

@[simp] theorem reading_andThen (first : Outcome α bound)
    (second : α → (rest : List Token) → Outcome β rest.length) :
    (first.andThen second).reading =
      first.reading.bind fun value rest => (second value rest).reading := by
  cases first with
  | accept value rest h =>
      show ((second value rest).weaken (Nat.le_of_lt h)).reading = _
      rw [reading_weaken, Outcome.reading, Reading.bind_accept]
  | reject failure rest h => rfl

/-- A token of the kind wanted is read. -/
theorem reading_expect_of_eq {kind : Kind} {fault : SyntaxFault}
    {token : Token} (h : token.kind = kind) (rest : List Token) :
    (expect kind fault (token :: rest)).reading = .accept [] token rest := by
  rw [expect, if_pos h]
  rfl

/-- A token of another kind is left where it is. -/
theorem reading_expect_of_ne {kind : Kind} {fault : SyntaxFault}
    {token : Token} (h : token.kind ≠ kind) (rest : List Token) :
    (expect kind fault (token :: rest)).reading =
      .reject [] ⟨fault, token :: rest⟩ (token :: rest) := by
  rw [expect, if_neg h]
  rfl

end Outcome

/-! ## Expressions -/

/-- No operator binds more loosely than a disjunction. -/
theorem le_loosest {kind : Kind} {k : Nat} (h : kind.looseness? = some k) :
    k ≤ loosest := by
  cases kind <;> cases h <;> decide

section Expression

variable {token : Token} {rest : List Token} {k : Nat}

theorem reading_atom_name (h : token.kind = .identifier) :
    (atom (token :: rest)).reading = .accept [] (.var token) rest := by
  rw [atom, if_pos h]
  rfl

theorem reading_atom_constant (hName : token.kind ≠ .identifier)
    {value : Literal} (h : constant? token = some (.ok value)) :
    (atom (token :: rest)).reading = .accept [] (.literal value) rest := by
  rw [atom, if_neg hName]
  split <;> rename_i hConstant <;> rw [h] at hConstant <;> cases hConstant
  rfl

/-- A constant that cannot be read is what the fault is about, and is
passed over. -/
theorem reading_atom_unreadable (hName : token.kind ≠ .identifier)
    {fault : SyntaxFault} (h : constant? token = some (.error fault)) :
    (atom (token :: rest)).reading =
      .reject [] ⟨fault, token :: rest⟩ rest := by
  rw [atom, if_neg hName]
  split <;> rename_i hConstant <;> rw [h] at hConstant <;> cases hConstant
  rfl

theorem reading_atom_other (hName : token.kind ≠ .identifier)
    (h : constant? token = none) :
    (atom (token :: rest)).reading =
      .reject [] ⟨.operand, token :: rest⟩ (token :: rest) := by
  rw [atom, if_neg hName]
  split <;> rename_i hConstant <;> rw [h] at hConstant <;> cases hConstant
  rfl

/-- The operators behind a left operand, as a reading. -/
def chainReading (k : Nat) (left : Expr) (tokens : List Token) :
    Reading Expr :=
  (chain k left tokens (Nat.lt_succ_self tokens.length)).reading

/-- The bound that a chain is read under has no part in its reading. -/
theorem reading_chain {bound : Nat} (k : Nat) (left : Expr)
    (tokens : List Token) (shorter : tokens.length < bound) :
    (chain k left tokens shorter).reading = chainReading k left tokens := by
  have hBound : ∀ (b b' : Nat) (hb : tokens.length < b)
      (hb' : tokens.length < b'),
      (chain k left tokens hb).reading = (chain k left tokens hb').reading := by
    cases tokens with
    | nil =>
        intro b b' hb hb'
        rw [chain, chain]
        rfl
    | cons token rest =>
        intro b b' hb hb'
        rw [chain, chain]
        split
        · cases level k rest with
          | accept right rest' h =>
              have hLess : rest'.length < (token :: rest).length :=
                Nat.lt_succ_of_lt h
              exact (reading_chain k _ rest' _).trans
                (reading_chain k _ rest' _).symm
          | reject failure rest' h => rfl
        · rfl
  exact hBound _ _ shorter _
termination_by tokens.length

theorem reading_level_nil :
    (level 0 []).reading = .reject [] ⟨.operand, []⟩ [] := by
  rw [level]
  rfl

theorem reading_level_unary (h : token.kind.isUnary = true) :
    (level 0 (token :: rest)).reading =
      (level 0 rest).reading.map (.unary token) := by
  rw [level, if_pos h]
  cases level 0 rest <;> rfl

theorem reading_level_group (h : token.kind = .leftParen) :
    (level 0 (token :: rest)).reading =
      (level loosest rest).reading.bind fun inner rest =>
        (expect .rightParen .groupClosing rest).reading.map fun _ =>
          .group inner := by
  have hUnary : ¬token.kind.isUnary = true := by rw [h]; decide
  rw [level, if_neg hUnary, if_pos h]
  cases level loosest rest with
  | accept inner rest' hLess =>
      show (((expect ..).map _).weaken _).reading = _
      rw [reading_weaken, reading_map, Outcome.reading, Reading.bind_accept]
  | reject failure rest' hLess => rfl

theorem reading_level_atom (hUnary : ¬token.kind.isUnary = true)
    (hOpen : token.kind ≠ .leftParen) :
    (level 0 (token :: rest)).reading = (atom (token :: rest)).reading := by
  rw [level, if_neg hUnary, if_neg hOpen]

theorem reading_level_succ (k : Nat) (tokens : List Token) :
    (level (k + 1) tokens).reading =
      (level k tokens).reading.bind (chainReading k) := by
  rw [level]
  cases level k tokens with
  | accept left rest h =>
      rw [Outcome.reading, Reading.bind_accept]
      exact reading_chain k left rest h
  | reject failure rest h => rfl

@[simp] theorem chainReading_nil (k : Nat) (left : Expr) :
    chainReading k left [] = .accept [] left [] := by
  rw [chainReading, chain]
  rfl

theorem chainReading_operator (left : Expr)
    (h : token.kind.looseness? = some (k + 1)) :
    chainReading k left (token :: rest) =
      (level k rest).reading.bind fun right rest =>
        chainReading k (.binary left token right) rest := by
  rw [chainReading, chain, if_pos h]
  cases level k rest with
  | accept right rest' hLess =>
      rw [Outcome.reading, Reading.bind_accept]
      exact reading_chain k _ rest' _
  | reject failure rest' hLess => rfl

theorem chainReading_stop (left : Expr)
    (h : token.kind.looseness? ≠ some (k + 1)) :
    chainReading k left (token :: rest) = .accept [] left (token :: rest) := by
  rw [chainReading, chain, if_neg h]
  rfl

end Expression

/-! ## Statements -/

section Statement

variable {token : Token} {rest : List Token}

/-- The failures that a statement rule mends come before its own
outcome. -/
def Attempt.reading {bound : Nat} (attempt : Attempt bound) : Reading Stmt :=
  attempt.outcome.reading.after attempt.mended.toList

/-- A statement rule that accepts has read something. -/
theorem Attempt.length_lt_of_reading {bound : Nat} {attempt : Attempt bound}
    {mended : List Failure} {stmt : Stmt} {rest : List Token}
    (h : attempt.reading = .accept mended stmt rest) : rest.length < bound := by
  rcases attempt with ⟨before, outcome⟩
  cases outcome with
  | accept value rest hLess =>
      cases h
      exact hLess
  | reject failure rest hLe => cases h

theorem Attempt.length_rest_reading_le {bound : Nat} (attempt : Attempt bound) :
    attempt.reading.rest.length ≤ bound := by
  rcases attempt with ⟨before, outcome⟩
  cases outcome with
  | accept value rest hLess => exact Nat.le_of_lt hLess
  | reject failure rest hLe => exact hLe

/-- A sequence mends all that is broken in it. -/
def Members.reading (members : Members) : Reading (List Stmt) :=
  .accept members.failures members.stmts members.rest

@[simp] theorem reading_ofOutcome {bound : Nat} (outcome : Outcome Stmt bound) :
    (Attempt.ofOutcome outcome).reading = outcome.reading :=
  Reading.after_nil _

/-- The names behind the first one of a declaration, as a reading. -/
def namesReading (names tokens : List Token) : Reading (List Token) :=
  (moreNames names tokens (Nat.lt_succ_self tokens.length)).reading

theorem reading_moreNames {bound : Nat} (names tokens : List Token)
    (shorter : tokens.length < bound) :
    (moreNames names tokens shorter).reading = namesReading names tokens := by
  have hBound : ∀ (b b' : Nat) (hb : tokens.length < b)
      (hb' : tokens.length < b'),
      (moreNames names tokens hb).reading =
        (moreNames names tokens hb').reading := by
    cases tokens with
    | nil =>
        intro b b' hb hb'
        rw [moreNames, moreNames]
        rfl
    | cons token rest =>
        intro b b' hb hb'
        rw [moreNames, moreNames]
        split
        · cases expect .identifier .anotherDeclarationName rest with
          | accept name rest' h =>
              have hLess : rest'.length < (token :: rest).length :=
                Nat.lt_succ_of_lt h
              exact (reading_moreNames _ rest' _).trans
                (reading_moreNames _ rest' _).symm
          | reject failure rest' h => rfl
        · rfl
  exact hBound _ _ shorter _
termination_by tokens.length

@[simp] theorem namesReading_nil (names : List Token) :
    namesReading names [] = .accept [] names.reverse [] := by
  rw [namesReading, moreNames]
  rfl

theorem namesReading_comma (names : List Token) (h : token.kind = .comma) :
    namesReading names (token :: rest) =
      (expect .identifier .anotherDeclarationName rest).reading.bind
        fun name rest => namesReading (name :: names) rest := by
  rw [namesReading, moreNames, if_pos h]
  cases expect .identifier .anotherDeclarationName rest with
  | accept name rest' hLess =>
      rw [Outcome.reading, Reading.bind_accept]
      exact reading_moreNames _ rest' _
  | reject failure rest' hLess => rfl

theorem namesReading_stop (names : List Token) (h : token.kind ≠ .comma) :
    namesReading names (token :: rest) =
      .accept [] names.reverse (token :: rest) := by
  rw [namesReading, moreNames, if_neg h]
  rfl

theorem reading_declarationRest (type : Token) (tokens : List Token) :
    (declarationRest type tokens).reading =
      (expect .identifier .declarationName tokens).reading.bind
        fun name tokens => (namesReading [name] tokens).bind
        fun names tokens => (expect .semicolon .declarationEnd tokens).reading.map
        fun _ => declareAll type names := by
  rw [declarationRest]
  cases expect .identifier .declarationName tokens with
  | accept name rest h =>
      rw [Outcome.reading, Reading.bind_accept]
      show ((moreNames [name] rest h).andThen _).reading = _
      rw [reading_andThen, reading_moreNames]
      simp only [reading_map]
  | reject failure rest h => rfl

/-- What may follow the first branch of a condition, as a reading. -/
def elseReading (condition : Expr) (thenPart : Stmt) :
    List Token → Reading Stmt
  | [] => .accept [] (.ifThen condition thenPart) []
  | token :: rest =>
    if token.kind = .elseWord then
      (statement rest).reading.map (.ifThenElse condition thenPart)
    else .accept [] (.ifThen condition thenPart) (token :: rest)

/-- The branches of a condition, as a reading. -/
def branchesReading (condition : Expr) (tokens : List Token) : Reading Stmt :=
  (statement tokens).reading.bind (elseReading condition)

theorem reading_branches (condition : Expr) (tokens : List Token)
    (bound : Nat) (shorter : tokens.length < bound) :
    (branches condition tokens bound shorter).reading =
      branchesReading condition tokens := by
  rw [branches, branchesReading]
  rcases statement tokens with ⟨mended, outcome⟩
  simp only [Attempt.reading, bind_after]
  cases outcome with
  | reject failure rest h => rfl
  | accept thenPart rest h =>
      cases rest with
      | nil => rfl
      | cons token rest =>
          simp only [Outcome.reading, Reading.bind_accept, elseReading]
          split
          · rcases statement rest with ⟨mended', outcome'⟩
            cases outcome' <;>
              simp [Attempt.reading, Outcome.reading, map_after]
          · rfl

/-- Behind a name, an assignment operator makes an assignment. -/
theorem reading_simple_assign {name operator : Token}
    (hName : name.kind = .identifier)
    (hOperator : operator.kind.isAssignment = true) (rest : List Token) :
    (simple (name :: operator :: rest)).reading =
      (assignmentRest name operator rest).reading := by
  rw [simple, if_pos (by rw [hName, hOperator]; rfl), reading_weaken]

/-- What does not begin like an assignment is an expression. -/
theorem reading_simple_expression
    (h : ∀ operator ∈ rest.head?,
      ¬(token.kind = .identifier ∧ operator.kind.isAssignment = true)) :
    (simple (token :: rest)).reading =
      (expressionStatement (token :: rest)).reading := by
  cases rest with
  | nil => rfl
  | cons operator rest =>
      rw [simple, if_neg (by simpa using h operator rfl)]

theorem reading_expressionStatement_nil :
    (expressionStatement []).reading = .reject [] ⟨.operand, []⟩ [] := by
  rw [expressionStatement, reading_andThen, expression, loosest]
  simp only [reading_level_succ, reading_level_nil, Reading.bind_reject]

theorem reading_statement_nil :
    (statement []).reading = .reject [] ⟨.operand, []⟩ [] := by
  rw [statement, reading_ofOutcome, reading_expressionStatement_nil]

theorem reading_statement_read (h : token.kind = .read) :
    (statement (token :: rest)).reading = (readRest rest).reading := by
  rw [statement, h]
  simp only [reading_ofOutcome, reading_weaken]

theorem reading_statement_write (h : token.kind = .write) :
    (statement (token :: rest)).reading = (writeRest rest).reading := by
  rw [statement, h]
  simp only [reading_ofOutcome, reading_weaken]

theorem reading_statement_if (h : token.kind = .ifWord) :
    (statement (token :: rest)).reading =
      (ifHead rest).reading.bind branchesReading := by
  rw [statement, h]
  simp only
  cases ifHead rest with
  | accept condition rest' hLess =>
      rw [Outcome.reading, Reading.bind_accept]
      exact reading_branches ..
  | reject failure rest' hLess => rfl

theorem reading_statement_while (h : token.kind = .whileWord) :
    (statement (token :: rest)).reading =
      (whileHead rest).reading.bind fun condition rest =>
        (statement rest).reading.map (.whileLoop condition) := by
  rw [statement, h]
  simp only
  cases whileHead rest with
  | accept condition rest' hLess =>
      simp only [Outcome.reading, Reading.bind_accept]
      rcases statement rest' with ⟨mended, outcome⟩
      simp only [Attempt.reading, map_after]
      cases outcome <;> rfl
  | reject failure rest' hLess => rfl

theorem reading_statement_block (h : token.kind = .leftBrace) :
    (statement (token :: rest)).reading =
      (members true rest).reading.bind fun stmts rest =>
        (expect .rightBrace .blockClosing rest).reading.map fun _ =>
          .block stmts := by
  rw [statement, h]
  simp only [Attempt.reading, Members.reading, members, reading_weaken,
    reading_map]
  rfl

theorem reading_statement_simple (hRead : token.kind ≠ .read)
    (hWrite : token.kind ≠ .write) (hIf : token.kind ≠ .ifWord)
    (hWhile : token.kind ≠ .whileWord) (hBlock : token.kind ≠ .leftBrace) :
    (statement (token :: rest)).reading = (simple (token :: rest)).reading := by
  rw [statement]
  split
  · exact absurd ‹_› hRead
  · exact absurd ‹_› hWrite
  · exact absurd ‹_› hIf
  · exact absurd ‹_› hWhile
  · exact absurd ‹_› hBlock
  · exact reading_ofOutcome _

theorem reading_declaration_nil :
    (declaration []).reading = .reject [] ⟨.operand, []⟩ [] := by
  rw [declaration, reading_statement_nil]

theorem reading_declaration_type
    (h : token.kind = .long ∨ token.kind = .double) :
    (declaration (token :: rest)).reading =
      (declarationRest token rest).reading := by
  rw [declaration]
  rcases h with h | h <;> rw [h] <;>
    simp only [reading_ofOutcome, reading_weaken]

theorem reading_declaration_statement (hLong : token.kind ≠ .long)
    (hDouble : token.kind ≠ .double) :
    (declaration (token :: rest)).reading =
      (statement (token :: rest)).reading := by
  rw [declaration]
  split
  · exact absurd ‹_› hLong
  · exact absurd ‹_› hDouble
  · rfl

@[simp] theorem reading_members_nil (inBlock : Bool) :
    (members inBlock []).reading = .accept [] [] [] := by
  rw [members_nil]
  rfl

theorem reading_members_closing (h : token.kind = .rightBrace) :
    (members true (token :: rest)).reading =
      .accept [] [] (token :: rest) := by
  rw [members_closing h]
  rfl

/-- A sequence goes on behind each member; where one is broken, it goes on
where reading recovers. -/
theorem reading_members_cons {inBlock : Bool}
    (hOpen : inBlock = true → token.kind ≠ .rightBrace) :
    (members inBlock (token :: rest)).reading =
      (declaration (token :: rest)).reading.mend
        (fun stmt rest => (members inBlock rest).reading.map (stmt :: ·))
        (fun rest => (members inBlock (recover rest)).reading) := by
  cases hStmt : declaration (token :: rest) with
  | mk mended outcome =>
    cases outcome with
    | accept stmt rest' h =>
        rw [members_accept hOpen hStmt]
        simp [Members.reading, Attempt.reading, Outcome.reading,
          Reading.after, Reading.mend]
    | reject failure rest' h =>
        rw [members_reject hOpen hStmt]
        simp [Members.reading, Attempt.reading, Outcome.reading,
          Reading.after, Reading.mend]

end Statement

end ImpFront.Grammar
