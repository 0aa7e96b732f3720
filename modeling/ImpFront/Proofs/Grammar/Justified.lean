import ImpFront.Proofs.Grammar.Derivation
import ImpFront.Proofs.Grammar.Reading

/-!
# Every error is true of its token

A fault says of a token that it is not what was wanted, or that it is a
constant which cannot be read. `AppliesTo` spells out what each fault says.
Of two faults it says that they apply to no token at all: an assignment is
only begun where a name and an assignment operator stand, and so neither of
them is ever missed.

There are few ways in which a rule can fail, and `Failure.Explained` lists
them. Each rule fails in these ways only, and what is said of failures is
said of the ways: that the fault applies to the token, where at the end of
the input every fault does for which one kind of token was wanted, since no
rule wants the end; and that a block is left open only there.

## Main results

* `expect_explained`, `level_explained` — tokens and expressions.
* `members_explained` — sequences, whatever is broken in them.
* `errors_apply` — the errors of a program.
-/

namespace ImpFront

open Token (Kind)

namespace SyntaxFault

/-- The kind of token that was wanted, where it was one kind. -/
def wanted? : SyntaxFault → Option Kind
  | declarationName | anotherDeclarationName | readName => some .identifier
  | declarationEnd | expressionEnd | assignmentEnd | readEnd | writeEnd =>
    some .semicolon
  | readOpening | writeOpening | ifOpening | whileOpening => some .leftParen
  | readClosing | writeClosing | ifClosing | whileClosing | groupClosing =>
    some .rightParen
  | ifThen => some .thenWord
  | blockClosing => some .rightBrace
  | assignmentName | assignmentOperator | operand | integerTooLarge
  | realUnreadable => none

/-- What the fault says of the token that it is about. -/
def AppliesTo (token : Token) : SyntaxFault → Prop
  | assignmentName | assignmentOperator => False
  | operand => Grammar.beginsOperand token.kind = false
  | integerTooLarge =>
    token.kind = .integer ∧ Number.integer? token.lexeme = none
  | realUnreadable => token.kind = .real ∧ Number.real? token.lexeme = none
  | fault => fault.wanted? ≠ some token.kind

theorem appliesTo_of_ne {fault : SyntaxFault} {kind : Kind} {token : Token}
    (hWanted : fault.wanted? = some kind) (hKind : token.kind ≠ kind) :
    fault.AppliesTo token := by
  have hNot : fault.wanted? ≠ some token.kind := by
    rw [hWanted]
    exact fun hSame => hKind (Option.some.inj hSame).symm
  cases fault <;> first | exact hNot | cases hWanted

/-- The end of the input is never wanted. -/
theorem wanted?_ne_endOfInput (fault : SyntaxFault) :
    fault.wanted? ≠ some .endOfInput := by
  cases fault <;> decide

end SyntaxFault

namespace Grammar

/-! ## How rules fail -/

namespace Failure

/-- The ways in which a rule can fail. -/
inductive Explained : Failure → Prop
  /-- One kind of token was wanted, and none of it is in front. -/
  | missed {fault : SyntaxFault} {kind : Kind} {found : List Token}
      (hWanted : fault.wanted? = some kind) (hFault : fault ≠ .blockClosing)
      (hKind : ∀ token ∈ found.head?, token.kind ≠ kind) :
      Explained ⟨fault, found⟩
  /-- An operand was wanted, and nothing in front begins one. -/
  | noOperand {found : List Token}
      (hBegins : ∀ token ∈ found.head?, beginsOperand token.kind = false) :
      Explained ⟨.operand, found⟩
  /-- A constant cannot be read. -/
  | unreadable {fault : SyntaxFault} {token : Token} {rest : List Token}
      (hConstant : constant? token = some (.error fault)) :
      Explained ⟨fault, token :: rest⟩
  /-- A block is left open. Any token would have closed it, or would have been
  read as one more of its members. -/
  | unclosed : Explained ⟨.blockClosing, []⟩

/-- A constant that cannot be read is one of the two kinds of numbers. -/
theorem appliesTo_of_constant? {fault : SyntaxFault} {token : Token}
    (h : constant? token = some (.error fault)) :
    fault.AppliesTo token ∧ fault ≠ .blockClosing := by
  unfold constant? at h
  split at h
  · next hKind =>
    split at h
    · cases h
    · next hNone => cases h; exact ⟨⟨hKind, hNone⟩, by decide⟩
  · next hKind =>
    split at h
    · cases h
    · next hNone => cases h; exact ⟨⟨hKind, hNone⟩, by decide⟩
  · cases h
  · cases h
  · cases h

variable {failure : Failure}

/-- The fault applies to what was found, or to the end of the input. -/
theorem Explained.appliesTo (h : failure.Explained) {finish : Token}
    (hFinish : finish.kind = .endOfInput) :
    failure.fault.AppliesTo (failure.toError finish).token := by
  cases h with
  | @missed fault kind found hWanted _ hKind =>
      refine SyntaxFault.appliesTo_of_ne hWanted ?_
      cases found with
      | nil =>
          -- the end of the input is never wanted
          rintro rfl
          exact fault.wanted?_ne_endOfInput (hFinish ▸ hWanted)
      | cons token rest => exact hKind token rfl
  | @noOperand found hBegins =>
      show beginsOperand _ = false
      cases found with
      | nil => exact congrArg beginsOperand hFinish
      | cons token rest => exact hBegins token rfl
  | unreadable hConstant => exact (appliesTo_of_constant? hConstant).1
  | unclosed =>
      refine SyntaxFault.appliesTo_of_ne rfl ?_
      intro hKind
      cases hFinish.symm.trans hKind

/-- Only at the end of the input a block is not closed. -/
theorem Explained.found_eq_nil (h : failure.Explained)
    (hFault : failure.fault = .blockClosing) : failure.found = [] := by
  cases h with
  | missed _ hOther _ => exact absurd hFault hOther
  | noOperand => cases hFault
  | unreadable hConstant =>
      exact absurd hFault (appliesTo_of_constant? hConstant).2
  | unclosed => rfl

end Failure

namespace Reading

variable {α β : Type} {reading : Reading α} {failure : Failure}
  {rest : List Token}

/-- All failures of a rule come about in one of these ways. -/
def Explained (reading : Reading α) : Prop :=
  ∀ failure ∈ reading.failures, failure.Explained

theorem Explained.accept (value : α) (rest : List Token) :
    (Reading.accept [] value rest).Explained :=
  List.forall_mem_nil _

theorem Explained.reject (h : failure.Explained) :
    (Reading.reject [] failure rest : Reading α).Explained :=
  List.forall_mem_singleton.2 h

theorem Explained.after {failures : List Failure} (h : reading.Explained)
    (hFailures : ∀ failure ∈ failures, failure.Explained) :
    (reading.after failures).Explained := by
  rw [Explained, failures_after]
  exact List.forall_mem_append.2 ⟨hFailures, h⟩

/-- A rule behind a rule. -/
theorem Explained.bind_of {next : α → List Token → Reading β}
    (h : reading.Explained)
    (hNext : ∀ mended value rest, reading = .accept mended value rest →
      (next value rest).Explained) : (reading.bind next).Explained := by
  cases reading with
  | accept mended value rest => exact (hNext mended value rest rfl).after h
  | reject mended failure rest => exact h

theorem Explained.bind {next : α → List Token → Reading β}
    (h : reading.Explained)
    (hNext : ∀ value rest, (next value rest).Explained) :
    (reading.bind next).Explained :=
  h.bind_of fun _ value rest _ => hNext value rest

theorem Explained.map {f : α → β} (h : reading.Explained) :
    (reading.map f).Explained :=
  h.bind fun value rest => .accept (f value) rest

/-- A rule behind one whose failure is mended. -/
theorem Explained.mend {accepted : α → List Token → Reading β}
    {rejected : List Token → Reading β} (h : reading.Explained)
    (hAccepted : ∀ mended value rest, reading = .accept mended value rest →
      (accepted value rest).Explained)
    (hRejected : ∀ mended failure rest, reading = .reject mended failure rest →
      (rejected rest).Explained) :
    (reading.mend accepted rejected).Explained := by
  cases reading with
  | accept mended value rest => exact (hAccepted mended value rest rfl).after h
  | reject mended failure rest =>
      exact (hRejected mended failure rest rfl).after h

end Reading

open Reading (Explained)

/-! ## Tokens and expressions -/

theorem expect_explained {kind : Kind} {fault : SyntaxFault}
    (hWanted : fault.wanted? = some kind) (hFault : fault ≠ .blockClosing)
    (tokens : List Token) : (expect kind fault tokens).reading.Explained := by
  cases tokens with
  | nil => exact .reject (.missed hWanted hFault (by simp))
  | cons token rest =>
      by_cases hKind : token.kind = kind
      · rw [reading_expect_of_eq hKind]
        exact .accept token rest
      · rw [reading_expect_of_ne hKind]
        refine .reject (.missed hWanted hFault ?_)
        rintro _ ⟨⟩
        exact hKind

section Expression

variable {token : Token} {rest : List Token}

/-- What is no prefix operator, parenthesis, name or constant is no
operand. -/
theorem beginsOperand_eq_false (hUnary : ¬token.kind.isUnary = true)
    (hOpening : token.kind ≠ .leftParen) (hName : token.kind ≠ .identifier)
    (hConstant : constant? token = none) :
    beginsOperand token.kind = false := by
  unfold constant? at hConstant
  generalize token.kind = kind at *
  cases kind <;> first | rfl | contradiction

theorem atom_explained (hUnary : ¬token.kind.isUnary = true)
    (hOpening : token.kind ≠ .leftParen) :
    (atom (token :: rest)).reading.Explained := by
  by_cases hName : token.kind = .identifier
  · rw [reading_atom_name hName]
    exact .accept _ rest
  match h : constant? token with
  | some (.ok value) =>
      rw [reading_atom_constant hName h]
      exact .accept _ rest
  | some (.error fault) =>
      rw [reading_atom_unreadable hName h]
      exact .reject (.unreadable h)
  | none =>
      rw [reading_atom_other hName h]
      refine .reject (.noOperand ?_)
      rintro _ ⟨⟩
      exact beginsOperand_eq_false hUnary hOpening hName h

mutual

theorem level_explained (k : Nat) (tokens : List Token) :
    (level k tokens).reading.Explained := by
  match k, tokens with
  | 0, [] =>
      rw [reading_level_nil]
      exact .reject (.noOperand (by simp))
  | 0, token :: rest =>
      by_cases hUnary : token.kind.isUnary = true
      · rw [reading_level_unary hUnary]
        exact (level_explained 0 rest).map
      by_cases hOpening : token.kind = .leftParen
      · rw [reading_level_group hOpening]
        exact (level_explained loosest rest).bind fun inner rest =>
          (expect_explained rfl (by decide) rest).map
      rw [reading_level_atom hUnary hOpening]
      exact atom_explained hUnary hOpening
  | k + 1, tokens =>
      rw [reading_level_succ]
      refine (level_explained k tokens).bind_of ?_
      intro mended left rest hReading
      have hLess := Outcome.length_lt_of_reading hReading
      exact chain_explained k left rest
termination_by (tokens.length, k)

theorem chain_explained (k : Nat) (left : Expr) (tokens : List Token) :
    (chainReading k left tokens).Explained := by
  match tokens with
  | [] =>
      rw [chainReading_nil]
      exact .accept left []
  | token :: rest =>
      by_cases h : token.kind.looseness? = some (k + 1)
      · rw [chainReading_operator left h]
        refine (level_explained k rest).bind_of ?_
        intro mended right rest' hReading
        have hLess := Outcome.length_lt_of_reading hReading
        exact chain_explained k _ rest'
      · rw [chainReading_stop left h]
        exact .accept left _
termination_by (tokens.length, 0)

end

theorem expression_explained (tokens : List Token) :
    (expression tokens).reading.Explained :=
  level_explained loosest tokens

end Expression

/-! ## Statements -/

section Statement

theorem readRest_explained (tokens : List Token) :
    (readRest tokens).reading.Explained := by
  simp only [readRest, reading_andThen, reading_map]
  refine (expect_explained rfl (by decide) tokens).bind fun _ tokens => ?_
  refine (expect_explained rfl (by decide) tokens).bind fun name tokens => ?_
  refine (expect_explained rfl (by decide) tokens).bind fun _ tokens => ?_
  exact (expect_explained rfl (by decide) tokens).map

theorem writeRest_explained (tokens : List Token) :
    (writeRest tokens).reading.Explained := by
  simp only [writeRest, reading_andThen, reading_map]
  refine (expect_explained rfl (by decide) tokens).bind fun _ tokens => ?_
  refine (expression_explained tokens).bind fun value tokens => ?_
  refine (expect_explained rfl (by decide) tokens).bind fun _ tokens => ?_
  exact (expect_explained rfl (by decide) tokens).map

theorem ifHead_explained (tokens : List Token) :
    (ifHead tokens).reading.Explained := by
  simp only [ifHead, reading_andThen, reading_map]
  refine (expect_explained rfl (by decide) tokens).bind fun _ tokens => ?_
  refine (expression_explained tokens).bind fun condition tokens => ?_
  refine (expect_explained rfl (by decide) tokens).bind fun _ tokens => ?_
  exact (expect_explained rfl (by decide) tokens).map

theorem whileHead_explained (tokens : List Token) :
    (whileHead tokens).reading.Explained := by
  simp only [whileHead, reading_andThen, reading_map]
  refine (expect_explained rfl (by decide) tokens).bind fun _ tokens => ?_
  refine (expression_explained tokens).bind fun condition tokens => ?_
  exact (expect_explained rfl (by decide) tokens).map

theorem expressionStatement_explained (tokens : List Token) :
    (expressionStatement tokens).reading.Explained := by
  simp only [expressionStatement, reading_andThen, reading_map]
  refine (expression_explained tokens).bind fun value tokens => ?_
  exact (expect_explained rfl (by decide) tokens).map

/-- An assignment is only read where its name and its operator were seen, so
what it can miss stands behind them. -/
theorem assignmentRest_explained (name operator : Token) (tokens : List Token) :
    (assignmentRest name operator tokens).reading.Explained := by
  simp only [assignmentRest, reading_andThen, reading_map]
  refine (expression_explained tokens).bind fun value tokens => ?_
  exact (expect_explained rfl (by decide) tokens).map

theorem simple_explained (tokens : List Token) :
    (simple tokens).reading.Explained := by
  unfold simple
  split
  · next name operator rest =>
    split
    · rw [reading_weaken]
      exact assignmentRest_explained name operator rest
    · exact expressionStatement_explained _
  · exact expressionStatement_explained _

theorem namesReading_explained (names tokens : List Token) :
    (namesReading names tokens).Explained := by
  match tokens with
  | [] =>
      rw [namesReading_nil]
      exact .accept _ []
  | token :: rest =>
      by_cases hComma : token.kind = .comma
      · rw [namesReading_comma names hComma]
        refine (expect_explained rfl (by decide) rest).bind_of ?_
        intro mended name rest' hReading
        have hLess := Outcome.length_lt_of_reading hReading
        exact namesReading_explained (name :: names) rest'
      · rw [namesReading_stop names hComma]
        exact .accept _ _
termination_by tokens.length
decreasing_by exact Nat.lt_succ_of_lt hLess

theorem declarationRest_explained (type : Token) (tokens : List Token) :
    (declarationRest type tokens).reading.Explained := by
  rw [reading_declarationRest]
  refine (expect_explained rfl (by decide) tokens).bind fun name tokens => ?_
  refine (namesReading_explained [name] tokens).bind fun names tokens => ?_
  exact (expect_explained rfl (by decide) tokens).map

/-- What ends the members of a block is its closing brace, or nothing is
left. -/
theorem members_rest_inBlock (tokens : List Token) :
    ∀ token ∈ (members true tokens).rest.head?, token.kind = .rightBrace := by
  match tokens with
  | [] =>
      rw [members_nil]
      simp
  | token :: rest =>
      by_cases hClosing : token.kind = .rightBrace
      · rw [members_closing hClosing]
        rintro _ ⟨⟩
        exact hClosing
      · match hStmt : declaration (token :: rest) with
        | ⟨mended, .accept stmt rest' hLess⟩ =>
            rw [members_accept (fun _ => hClosing) hStmt]
            exact members_rest_inBlock rest'
        | ⟨mended, .reject failure rest' hLe⟩ =>
            have hLess := length_recover_lt_of_le (Nat.succ_pos rest.length) hLe
            rw [members_reject (fun _ => hClosing) hStmt]
            exact members_rest_inBlock (recover rest')
termination_by tokens.length
decreasing_by all_goals exact hLess

theorem closing_explained {tokens : List Token}
    (h : ∀ token ∈ tokens.head?, token.kind = .rightBrace) :
    (expect .rightBrace .blockClosing tokens).reading.Explained := by
  cases tokens with
  | nil => exact .reject .unclosed
  | cons token rest =>
      rw [reading_expect_of_eq (h token rfl)]
      exact .accept token rest

mutual

theorem statement_explained (tokens : List Token) :
    (statement tokens).reading.Explained := by
  match tokens with
  | [] =>
      rw [reading_statement_nil]
      exact .reject (.noOperand (by simp))
  | token :: rest =>
      by_cases hRead : token.kind = .read
      · rw [reading_statement_read hRead]
        exact readRest_explained rest
      by_cases hWrite : token.kind = .write
      · rw [reading_statement_write hWrite]
        exact writeRest_explained rest
      by_cases hIf : token.kind = .ifWord
      · rw [reading_statement_if hIf]
        refine (ifHead_explained rest).bind_of ?_
        intro mended condition rest' hReading
        have hLess := Outcome.length_lt_of_reading hReading
        exact branchesReading_explained condition rest'
      by_cases hWhile : token.kind = .whileWord
      · rw [reading_statement_while hWhile]
        refine (whileHead_explained rest).bind_of ?_
        intro mended condition rest' hReading
        have hLess := Outcome.length_lt_of_reading hReading
        exact (statement_explained rest').map
      by_cases hBlock : token.kind = .leftBrace
      · rw [reading_statement_block hBlock]
        refine (members_explained true rest).bind_of ?_
        intro mended stmts rest' hReading
        have hRest : (members true rest).rest = rest' := by
          injection hReading
        exact (closing_explained (hRest ▸ members_rest_inBlock rest)).map
      rw [reading_statement_simple hRead hWrite hIf hWhile hBlock]
      exact simple_explained _
termination_by (tokens.length, 0)

theorem branchesReading_explained (condition : Expr) (tokens : List Token) :
    (branchesReading condition tokens).Explained := by
  refine (statement_explained tokens).bind_of ?_
  intro mended thenPart rest hReading
  have hLess := Attempt.length_lt_of_reading hReading
  match rest with
  | [] => exact .accept _ []
  | token :: rest' =>
      have hLess' : rest'.length < tokens.length := Nat.lt_of_succ_lt hLess
      rw [elseReading]
      split
      · exact (statement_explained rest').map
      · exact .accept _ _
termination_by (tokens.length, 1)

theorem declaration_explained (tokens : List Token) :
    (declaration tokens).reading.Explained := by
  match tokens with
  | [] =>
      rw [reading_declaration_nil]
      exact .reject (.noOperand (by simp))
  | token :: rest =>
      by_cases hType : token.kind = .long ∨ token.kind = .double
      · rw [reading_declaration_type hType]
        exact declarationRest_explained token rest
      · obtain ⟨hLong, hDouble⟩ := not_or.1 hType
        rw [reading_declaration_statement hLong hDouble]
        exact statement_explained (token :: rest)
termination_by (tokens.length, 1)

/-- Recovery reports nothing, so it does not matter where reading goes on. -/
theorem members_explained (inBlock : Bool) (tokens : List Token) :
    (members inBlock tokens).reading.Explained := by
  match tokens with
  | [] =>
      rw [reading_members_nil]
      exact .accept _ []
  | token :: rest =>
      by_cases hClosing : inBlock = true ∧ token.kind = .rightBrace
      · obtain ⟨rfl, hKind⟩ := hClosing
        rw [reading_members_closing hKind]
        exact .accept _ _
      · rw [reading_members_cons fun hBlock hKind => hClosing ⟨hBlock, hKind⟩]
        refine (declaration_explained (token :: rest)).mend ?_ ?_
        · intro mended stmt rest' hReading
          have hLess := Attempt.length_lt_of_reading hReading
          exact (members_explained inBlock rest').map
        · intro mended failure rest' hReading
          have hLe := (declaration (token :: rest)).length_rest_reading_le
          rw [hReading] at hLe
          have hLess : (recover rest').length < (token :: rest).length :=
            length_recover_lt_of_le (Nat.succ_pos _) hLe
          exact members_explained inBlock (recover rest')
termination_by (tokens.length, 2)

end

end Statement

/-- Every error of a program is true of its token. -/
theorem errors_apply (tokens : List Token) :
    ∀ error ∈ (Program.ofTokens tokens).errors,
      error.fault.AppliesTo error.token := by
  intro error hMem
  obtain ⟨failure, hFailure, rfl⟩ := List.mem_map.1 hMem
  exact (members_explained false _ failure hFailure).appliesTo
    (Reader.kind_finishOf _)

end Grammar

end ImpFront
