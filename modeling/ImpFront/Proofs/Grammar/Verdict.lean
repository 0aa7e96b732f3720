import ImpFront.Proofs.Grammar.Reading

/-!
# The rules of the grammar up to the first fault

A rule that meets a broken statement in a block mends it and goes on, so
its reading tells about everything behind the first fault as well. A
*verdict* forgets all of that: it is a value with the tokens left, or the
first failure. Seen through verdicts the rules are a reader that stops at
the first fault, and recovery has no part in their equations. What the
grammar accepts, and where it is first broken, is proved from these
equations alone.

## Main results

* `verdict_level_succ`, `chainVerdict_operator` — an expression of a level
  is an operand of the level below and the operators behind it.
* `verdict_statement_if`, `branchesVerdict_eq` — a condition, and the
  `else` that may follow it.
* `verdict_members_cons` — a sequence is clean as long as each of its
  members is.
-/

namespace ImpFront.Grammar

open Token (Kind)

/-- The result of a rule up to the first fault. -/
inductive Verdict (α : Type)
  | clean (value : α) (rest : List Token)
  | broken (failure : Failure)

namespace Verdict

variable {α β : Type}

/-- Go on behind a clean verdict. -/
def bind (verdict : Verdict α) (next : α → List Token → Verdict β) :
    Verdict β :=
  match verdict with
  | clean value rest => next value rest
  | broken failure => broken failure

/-- Change the value of a clean verdict. -/
def map (f : α → β) (verdict : Verdict α) : Verdict β :=
  verdict.bind fun value rest => clean (f value) rest

/-- A verdict that was reached behind failures which had been mended. -/
def behind (failures : List Failure) (verdict : Verdict α) : Verdict α :=
  match failures with
  | failure :: _ => broken failure
  | [] => verdict

@[simp] theorem bind_clean (value : α) (rest : List Token)
    (next : α → List Token → Verdict β) :
    (clean value rest).bind next = next value rest := rfl

@[simp] theorem bind_broken (failure : Failure)
    (next : α → List Token → Verdict β) :
    (broken failure).bind next = broken failure := rfl

@[simp] theorem map_clean (f : α → β) (value : α) (rest : List Token) :
    (clean value rest).map f = clean (f value) rest := rfl

@[simp] theorem map_broken (f : α → β) (failure : Failure) :
    (broken failure : Verdict α).map f = broken failure := rfl

@[simp] theorem behind_nil (verdict : Verdict α) :
    behind [] verdict = verdict := rfl

theorem behind_append (first second : List Failure) (verdict : Verdict α) :
    behind (first ++ second) verdict = behind first (behind second verdict) := by
  cases first <;> rfl

theorem bind_behind (failures : List Failure) (verdict : Verdict α)
    (next : α → List Token → Verdict β) :
    (behind failures verdict).bind next =
      behind failures (verdict.bind next) := by
  cases failures <;> rfl

theorem map_behind (f : α → β) (failures : List Failure)
    (verdict : Verdict α) :
    (behind failures verdict).map f = behind failures (verdict.map f) :=
  bind_behind failures verdict _

end Verdict

open Verdict (behind behind_append bind_behind map_behind)

/-! ## Readings -/

section Reading

variable {α β : Type}

/-- What a reading comes to up to the first fault. -/
def Reading.verdict : Reading α → Verdict α
  | accept mended value rest => behind mended (.clean value rest)
  | reject mended failure _ => behind mended (.broken failure)

theorem verdict_after (failures : List Failure) (reading : Reading α) :
    (reading.after failures).verdict = behind failures reading.verdict := by
  cases reading <;> exact behind_append failures _ _

theorem verdict_bind (reading : Reading α)
    (next : α → List Token → Reading β) :
    (reading.bind next).verdict =
      reading.verdict.bind fun value rest => (next value rest).verdict := by
  cases reading with
  | accept mended value rest =>
      rw [Reading.bind, verdict_after, Reading.verdict, bind_behind]
      rfl
  | reject mended failure rest =>
      rw [Reading.bind, Reading.verdict, Reading.verdict, bind_behind]
      rfl

theorem verdict_mapReading (f : α → β) (reading : Reading α) :
    (reading.map f).verdict = reading.verdict.map f :=
  verdict_bind reading _

/-- What comes behind a mended failure has no part in the verdict. -/
theorem verdict_mend (reading : Reading α)
    (accepted : α → List Token → Reading β)
    (rejected : List Token → Reading β) :
    (reading.mend accepted rejected).verdict =
      reading.verdict.bind fun value rest => (accepted value rest).verdict := by
  cases reading with
  | accept mended value rest =>
      rw [Reading.mend, verdict_after, Reading.verdict, bind_behind]
      rfl
  | reject mended failure rest =>
      rw [Reading.mend, verdict_after, behind_append, Reading.verdict,
        bind_behind]
      rfl

end Reading

/-! ## Outcomes -/

section Outcome

variable {α β : Type} {bound bound' : Nat}

/-- The verdict of a rule that holds no other statements. -/
def Outcome.verdict (outcome : Outcome α bound) : Verdict α :=
  outcome.reading.verdict

theorem verdict_reading (outcome : Outcome α bound) :
    outcome.reading.verdict = outcome.verdict := rfl

@[simp] theorem verdict_weaken (h : bound ≤ bound')
    (outcome : Outcome α bound) :
    (outcome.weaken h).verdict = outcome.verdict := by
  rw [Outcome.verdict, reading_weaken, verdict_reading]

@[simp] theorem verdict_map (f : α → β) (outcome : Outcome α bound) :
    (outcome.map f).verdict = outcome.verdict.map f := by
  rw [Outcome.verdict, reading_map, verdict_mapReading, verdict_reading]

@[simp] theorem verdict_andThen (first : Outcome α bound)
    (second : α → (rest : List Token) → Outcome β rest.length) :
    (first.andThen second).verdict =
      first.verdict.bind fun value rest => (second value rest).verdict := by
  rw [Outcome.verdict, reading_andThen, verdict_bind]
  rfl

/-- A token of the kind wanted is read. -/
theorem verdict_expect_of_eq {kind : Kind} {fault : SyntaxFault}
    {token : Token} (h : token.kind = kind) (rest : List Token) :
    (expect kind fault (token :: rest)).verdict = .clean token rest := by
  rw [Outcome.verdict, reading_expect_of_eq h]
  rfl

/-- A token of another kind is left where it is. -/
theorem verdict_expect_of_ne {kind : Kind} {fault : SyntaxFault}
    {token : Token} (h : token.kind ≠ kind) (rest : List Token) :
    (expect kind fault (token :: rest)).verdict =
      .broken ⟨fault, token :: rest⟩ := by
  rw [Outcome.verdict, reading_expect_of_ne h]
  rfl

end Outcome

/-! ## Expressions -/

section Expression

variable {token : Token} {rest : List Token} {k : Nat}

theorem verdict_atom_name (h : token.kind = .identifier) :
    (atom (token :: rest)).verdict = .clean (.var token) rest := by
  rw [Outcome.verdict, reading_atom_name h]
  rfl

theorem verdict_atom_constant (hName : token.kind ≠ .identifier)
    {value : Literal} (h : constant? token = some (.ok value)) :
    (atom (token :: rest)).verdict = .clean (.literal value) rest := by
  rw [Outcome.verdict, reading_atom_constant hName h]
  rfl

/-- A constant that cannot be read is what the fault is about. -/
theorem verdict_atom_unreadable (hName : token.kind ≠ .identifier)
    {fault : SyntaxFault} (h : constant? token = some (.error fault)) :
    (atom (token :: rest)).verdict = .broken ⟨fault, token :: rest⟩ := by
  rw [Outcome.verdict, reading_atom_unreadable hName h]
  rfl

theorem verdict_atom_other (hName : token.kind ≠ .identifier)
    (h : constant? token = none) :
    (atom (token :: rest)).verdict = .broken ⟨.operand, token :: rest⟩ := by
  rw [Outcome.verdict, reading_atom_other hName h]
  rfl

/-- The verdict on the operators behind a left operand. -/
def chainVerdict (k : Nat) (left : Expr) (tokens : List Token) :
    Verdict Expr :=
  (chainReading k left tokens).verdict

theorem verdict_level_nil : (level 0 []).verdict = .broken ⟨.operand, []⟩ := by
  rw [Outcome.verdict, reading_level_nil]
  rfl

theorem verdict_level_unary (h : token.kind.isUnary = true) :
    (level 0 (token :: rest)).verdict =
      (level 0 rest).verdict.map (.unary token) := by
  rw [Outcome.verdict, reading_level_unary h, verdict_mapReading]
  rfl

theorem verdict_level_group (h : token.kind = .leftParen) :
    (level 0 (token :: rest)).verdict =
      (level loosest rest).verdict.bind fun inner rest =>
        (expect .rightParen .groupClosing rest).verdict.map fun _ =>
          .group inner := by
  rw [Outcome.verdict, reading_level_group h, verdict_bind]
  simp only [verdict_mapReading, verdict_reading]

theorem verdict_level_atom (hUnary : ¬token.kind.isUnary = true)
    (hOpen : token.kind ≠ .leftParen) :
    (level 0 (token :: rest)).verdict = (atom (token :: rest)).verdict := by
  rw [Outcome.verdict, reading_level_atom hUnary hOpen, verdict_reading]

theorem verdict_level_succ (k : Nat) (tokens : List Token) :
    (level (k + 1) tokens).verdict =
      (level k tokens).verdict.bind (chainVerdict k) := by
  rw [Outcome.verdict, reading_level_succ, verdict_bind]
  rfl

@[simp] theorem chainVerdict_nil (k : Nat) (left : Expr) :
    chainVerdict k left [] = .clean left [] := by
  rw [chainVerdict, chainReading_nil]
  rfl

theorem chainVerdict_operator (left : Expr)
    (h : token.kind.looseness? = some (k + 1)) :
    chainVerdict k left (token :: rest) =
      (level k rest).verdict.bind fun right rest =>
        chainVerdict k (.binary left token right) rest := by
  rw [chainVerdict, chainReading_operator left h, verdict_bind]
  rfl

theorem chainVerdict_stop (left : Expr)
    (h : token.kind.looseness? ≠ some (k + 1)) :
    chainVerdict k left (token :: rest) = .clean left (token :: rest) := by
  rw [chainVerdict, chainReading_stop left h]
  rfl

end Expression

/-! ## Statements -/

section Statement

variable {token : Token} {rest : List Token}

/-- The verdict of a statement rule: failures that were mended inside come
before its own outcome. -/
def Attempt.verdict {bound : Nat} (attempt : Attempt bound) : Verdict Stmt :=
  attempt.reading.verdict

/-- The verdict on a sequence. -/
def Members.verdict (members : Members) : Verdict (List Stmt) :=
  behind members.failures (.clean members.stmts members.rest)

theorem verdict_readingAttempt {bound : Nat} (attempt : Attempt bound) :
    attempt.reading.verdict = attempt.verdict := rfl

theorem verdict_readingMembers (members : Members) :
    members.reading.verdict = members.verdict := rfl

/-- The verdict on the names behind the first one of a declaration. -/
def namesVerdict (names tokens : List Token) : Verdict (List Token) :=
  (namesReading names tokens).verdict

@[simp] theorem namesVerdict_nil (names : List Token) :
    namesVerdict names [] = .clean names.reverse [] := by
  rw [namesVerdict, namesReading_nil]
  rfl

theorem namesVerdict_comma (names : List Token) (h : token.kind = .comma) :
    namesVerdict names (token :: rest) =
      (expect .identifier .anotherDeclarationName rest).verdict.bind
        fun name rest => namesVerdict (name :: names) rest := by
  rw [namesVerdict, namesReading_comma names h, verdict_bind]
  rfl

theorem namesVerdict_stop (names : List Token) (h : token.kind ≠ .comma) :
    namesVerdict names (token :: rest) =
      .clean names.reverse (token :: rest) := by
  rw [namesVerdict, namesReading_stop names h]
  rfl

theorem verdict_declarationRest (type : Token) (tokens : List Token) :
    (declarationRest type tokens).verdict =
      (expect .identifier .declarationName tokens).verdict.bind
        fun name tokens => (namesVerdict [name] tokens).bind
        fun names tokens => (expect .semicolon .declarationEnd tokens).verdict.map
        fun _ => declareAll type names := by
  rw [Outcome.verdict, reading_declarationRest]
  simp only [verdict_bind, verdict_mapReading, verdict_reading]
  rfl

/-- The verdict on the branches of a condition. -/
def branchesVerdict (condition : Expr) (tokens : List Token) : Verdict Stmt :=
  (statement tokens).verdict.bind fun thenPart rest =>
    match rest with
    | [] => .clean (.ifThen condition thenPart) []
    | token :: rest =>
      if token.kind = .elseWord then
        (statement rest).verdict.map (.ifThenElse condition thenPart)
      else .clean (.ifThen condition thenPart) (token :: rest)

theorem verdict_branchesReading (condition : Expr) (tokens : List Token) :
    (branchesReading condition tokens).verdict =
      branchesVerdict condition tokens := by
  rw [branchesReading, verdict_bind, branchesVerdict, verdict_readingAttempt]
  congr 1
  funext thenPart rest
  cases rest with
  | nil => rfl
  | cons token rest =>
      by_cases h : token.kind = .elseWord
      · simp only [elseReading, if_pos h, verdict_mapReading,
          verdict_readingAttempt]
      · simp only [elseReading, if_neg h]
        rfl

theorem verdict_expressionStatement_nil :
    (expressionStatement []).verdict = .broken ⟨.operand, []⟩ := by
  rw [Outcome.verdict, reading_expressionStatement_nil]
  rfl

theorem verdict_statement_nil :
    (statement []).verdict = .broken ⟨.operand, []⟩ := by
  rw [Attempt.verdict, reading_statement_nil]
  rfl

theorem verdict_statement_read (h : token.kind = .read) :
    (statement (token :: rest)).verdict = (readRest rest).verdict := by
  rw [Attempt.verdict, reading_statement_read h, verdict_reading]

theorem verdict_statement_write (h : token.kind = .write) :
    (statement (token :: rest)).verdict = (writeRest rest).verdict := by
  rw [Attempt.verdict, reading_statement_write h, verdict_reading]

theorem verdict_statement_if (h : token.kind = .ifWord) :
    (statement (token :: rest)).verdict =
      (ifHead rest).verdict.bind branchesVerdict := by
  rw [Attempt.verdict, reading_statement_if h, verdict_bind, verdict_reading]
  simp only [verdict_branchesReading]

theorem verdict_statement_while (h : token.kind = .whileWord) :
    (statement (token :: rest)).verdict =
      (whileHead rest).verdict.bind fun condition rest =>
        (statement rest).verdict.map (.whileLoop condition) := by
  rw [Attempt.verdict, reading_statement_while h, verdict_bind]
  simp only [verdict_mapReading, verdict_reading, verdict_readingAttempt]

theorem verdict_statement_block (h : token.kind = .leftBrace) :
    (statement (token :: rest)).verdict =
      (members true rest).verdict.bind fun stmts rest =>
        (expect .rightBrace .blockClosing rest).verdict.map fun _ =>
          .block stmts := by
  rw [Attempt.verdict, reading_statement_block h, verdict_bind]
  simp only [verdict_mapReading, verdict_reading, verdict_readingMembers]

theorem verdict_statement_simple (hRead : token.kind ≠ .read)
    (hWrite : token.kind ≠ .write) (hIf : token.kind ≠ .ifWord)
    (hWhile : token.kind ≠ .whileWord) (hBlock : token.kind ≠ .leftBrace) :
    (statement (token :: rest)).verdict = (simple (token :: rest)).verdict := by
  rw [Attempt.verdict, reading_statement_simple hRead hWrite hIf hWhile hBlock,
    verdict_reading]

theorem verdict_declaration_nil :
    (declaration []).verdict = .broken ⟨.operand, []⟩ := by
  rw [Attempt.verdict, reading_declaration_nil]
  rfl

theorem verdict_declaration_type
    (h : token.kind = .long ∨ token.kind = .double) :
    (declaration (token :: rest)).verdict =
      (declarationRest token rest).verdict := by
  rw [Attempt.verdict, reading_declaration_type h, verdict_reading]

theorem verdict_declaration_statement (hLong : token.kind ≠ .long)
    (hDouble : token.kind ≠ .double) :
    (declaration (token :: rest)).verdict =
      (statement (token :: rest)).verdict := by
  rw [Attempt.verdict, reading_declaration_statement hLong hDouble,
    verdict_readingAttempt]

@[simp] theorem verdict_members_nil (inBlock : Bool) :
    (members inBlock []).verdict = .clean [] [] := by
  rw [← verdict_readingMembers, reading_members_nil]
  rfl

theorem verdict_members_closing (h : token.kind = .rightBrace) :
    (members true (token :: rest)).verdict = .clean [] (token :: rest) := by
  rw [← verdict_readingMembers, reading_members_closing h]
  rfl

/-- What comes behind a broken member has no part in the verdict. -/
theorem verdict_members_cons {inBlock : Bool}
    (hOpen : inBlock = true → token.kind ≠ .rightBrace) :
    (members inBlock (token :: rest)).verdict =
      (declaration (token :: rest)).verdict.bind fun stmt rest =>
        (members inBlock rest).verdict.map (stmt :: ·) := by
  rw [← verdict_readingMembers, reading_members_cons hOpen, verdict_mend]
  simp only [verdict_mapReading, verdict_readingMembers, verdict_readingAttempt]

end Statement

end ImpFront.Grammar
