import ImpFront.Proofs.Grammar.Acceptance

/-!
# Reading does not look at positions

No rule of the grammar asks where a token stands. If the positions of the
tokens are forgotten before they are read, then what is read is what would
have been read, with the positions forgotten: the same statements, the same
failures, and the same tokens left. This is shown for each rule from its
equation, and carries over to rules behind rules.

## Main results

* `Reading.bind_unplaced`, `Reading.mend_unplaced` — rules behind rules.
* `statement_unplaced`, `members_unplaced` — the rules that hold
  statements.
* `ofTokens_unplaced` — programs.
-/

namespace ImpFront

/-! ## Trees without positions -/

namespace Token

/-- The token, with its position forgotten. -/
def unplaced (token : Token) : Token := { token with position := .start }

@[simp] theorem kind_unplaced (token : Token) :
    token.unplaced.kind = token.kind := rfl

@[simp] theorem lexeme_unplaced (token : Token) :
    token.unplaced.lexeme = token.lexeme := rfl

@[simp] theorem line_unplaced (token : Token) : token.unplaced.line = 1 := rfl

end Token

namespace Expr

/-- The expression, with the positions in it forgotten. -/
def unplaced : Expr → Expr
  | binary left operator right =>
    binary left.unplaced operator.unplaced right.unplaced
  | unary operator operand => unary operator.unplaced operand.unplaced
  | literal value => literal value
  | var name => var name.unplaced
  | group inner => group inner.unplaced

end Expr

namespace Stmt

mutual

/-- The statement, with the positions in it forgotten. -/
def unplaced : Stmt → Stmt
  | declare type name => declare type.unplaced name.unplaced
  | expression value => expression value.unplaced
  | assign name operator value =>
    assign name.unplaced operator.unplaced value.unplaced
  | read name => read name.unplaced
  | write value => write value.unplaced
  | block members => block (unplacedAll members)
  | ifThen condition thenPart => ifThen condition.unplaced thenPart.unplaced
  | ifThenElse condition thenPart elsePart =>
    ifThenElse condition.unplaced thenPart.unplaced elsePart.unplaced
  | whileLoop condition body => whileLoop condition.unplaced body.unplaced

/-- The statements, with the positions in them forgotten. -/
def unplacedAll : List Stmt → List Stmt
  | [] => []
  | stmt :: stmts => stmt.unplaced :: unplacedAll stmts

end

@[simp] theorem unplacedAll_eq_map (stmts : List Stmt) :
    unplacedAll stmts = stmts.map unplaced := by
  induction stmts with
  | nil => rfl
  | cons stmt stmts ih => rw [unplacedAll, ih]; rfl

end Stmt

/-- The error, with the position of its token forgotten. -/
def SyntaxError.unplaced (error : SyntaxError) : SyntaxError :=
  ⟨error.fault, error.token.unplaced⟩

namespace Grammar

open Token (Kind)

/-- The failure, with the positions of what was found forgotten. -/
def Failure.unplaced (failure : Failure) : Failure :=
  ⟨failure.fault, failure.found.map Token.unplaced⟩

namespace Reading

variable {α β : Type}

/-- The reading, with positions forgotten: in its value as `forget` says. -/
def unplaced (forget : α → α) : Reading α → Reading α
  | accept mended value rest =>
    accept (mended.map Failure.unplaced) (forget value)
      (rest.map Token.unplaced)
  | reject mended failure rest =>
    reject (mended.map Failure.unplaced) failure.unplaced
      (rest.map Token.unplaced)

variable {forget : α → α} {forget' : β → β} {reading : Reading α}

theorem unplaced_after (failures : List Failure) :
    (reading.after failures).unplaced forget =
      (reading.unplaced forget).after (failures.map Failure.unplaced) := by
  cases reading <;> simp only [after, unplaced, List.map_append]

/-- A rule behind a rule. -/
theorem bind_unplaced {next next' : α → List Token → Reading β}
    (hNext : ∀ mended value rest, reading = .accept mended value rest →
      next' (forget value) (rest.map Token.unplaced) =
        (next value rest).unplaced forget') :
    (reading.unplaced forget).bind next' =
      (reading.bind next).unplaced forget' := by
  cases reading with
  | reject mended failure rest => rfl
  | accept mended value rest =>
      show (next' _ _).after _ = ((next value rest).after mended).unplaced _
      rw [hNext mended value rest rfl, unplaced_after]

theorem map_unplaced {f f' : α → β}
    (hMap : ∀ value, f' (forget value) = forget' (f value)) :
    (reading.unplaced forget).map f' = (reading.map f).unplaced forget' := by
  refine bind_unplaced ?_
  intro _ value rest _
  rw [hMap]
  rfl

/-- A rule behind a rule whose failure is mended. -/
theorem mend_unplaced {accepted accepted' : α → List Token → Reading β}
    {rejected rejected' : List Token → Reading β}
    (hAccepted : ∀ mended value rest, reading = .accept mended value rest →
      accepted' (forget value) (rest.map Token.unplaced) =
        (accepted value rest).unplaced forget')
    (hRejected : ∀ mended failure rest,
      reading = .reject mended failure rest →
      rejected' (rest.map Token.unplaced) =
        (rejected rest).unplaced forget') :
    (reading.unplaced forget).mend accepted' rejected' =
      (reading.mend accepted rejected).unplaced forget' := by
  cases reading with
  | accept mended value rest =>
      show (accepted' _ _).after _ =
        ((accepted value rest).after mended).unplaced _
      rw [hAccepted mended value rest rfl, unplaced_after]
  | reject mended failure rest =>
      show (rejected' _).after _ = ((rejected rest).after _).unplaced _
      rw [hRejected mended failure rest rfl, unplaced_after, List.map_append]
      rfl

end Reading

open Reading (bind_unplaced map_unplaced mend_unplaced)

/-! ## Tokens and expressions -/

theorem expect_unplaced (kind : Kind) (fault : SyntaxFault)
    (tokens : List Token) :
    (expect kind fault (tokens.map Token.unplaced)).reading =
      (expect kind fault tokens).reading.unplaced Token.unplaced := by
  cases tokens with
  | nil => rfl
  | cons token rest =>
      have hSame := token.kind_unplaced
      by_cases h : token.kind = kind
      · rw [List.map_cons, reading_expect_of_eq h,
          reading_expect_of_eq (hSame.trans h)]
        rfl
      · rw [List.map_cons, reading_expect_of_ne h,
          reading_expect_of_ne (hSame ▸ h)]
        rfl

theorem atom_unplaced (tokens : List Token) :
    (atom (tokens.map Token.unplaced)).reading =
      (atom tokens).reading.unplaced Expr.unplaced := by
  cases tokens with
  | nil => rfl
  | cons token rest =>
      have hSame := token.kind_unplaced
      have hConstant : constant? token.unplaced = constant? token := rfl
      rw [List.map_cons]
      by_cases hName : token.kind = .identifier
      · rw [reading_atom_name hName, reading_atom_name (hSame.trans hName)]
        rfl
      · have hName' : token.unplaced.kind ≠ .identifier := hName
        match h : constant? token with
        | some (.ok value) =>
            rw [reading_atom_constant hName h,
              reading_atom_constant hName' (hConstant.trans h)]
            rfl
        | some (.error fault) =>
            rw [reading_atom_unreadable hName h,
              reading_atom_unreadable hName' (hConstant.trans h)]
            rfl
        | none =>
            rw [reading_atom_other hName h,
              reading_atom_other hName' (hConstant.trans h)]
            rfl

mutual

theorem level_unplaced (k : Nat) (tokens : List Token) :
    (level k (tokens.map Token.unplaced)).reading =
      (level k tokens).reading.unplaced Expr.unplaced := by
  match k, tokens with
  | 0, [] =>
      rw [List.map_nil, reading_level_nil]
      rfl
  | 0, token :: rest =>
      rw [List.map_cons]
      by_cases hUnary : token.kind.isUnary = true
      · have hUnary' : token.unplaced.kind.isUnary = true := hUnary
        rw [reading_level_unary hUnary, reading_level_unary hUnary',
          level_unplaced 0 rest]
        exact map_unplaced fun _ => rfl
      by_cases hOpening : token.kind = .leftParen
      · have hOpening' : token.unplaced.kind = .leftParen := hOpening
        rw [reading_level_group hOpening, reading_level_group hOpening',
          level_unplaced loosest rest]
        refine bind_unplaced fun _ inner rest _ => ?_
        rw [expect_unplaced]
        exact map_unplaced fun _ => rfl
      have hUnary' : ¬token.unplaced.kind.isUnary = true := hUnary
      have hOpening' : token.unplaced.kind ≠ .leftParen := hOpening
      rw [reading_level_atom hUnary hOpening,
        reading_level_atom hUnary' hOpening']
      exact atom_unplaced (token :: rest)
  | k + 1, tokens =>
      rw [reading_level_succ, reading_level_succ, level_unplaced k tokens]
      refine bind_unplaced fun mended left rest hReading => ?_
      have hLess := Outcome.length_lt_of_reading hReading
      exact chain_unplaced k left rest
termination_by (tokens.length, k)

theorem chain_unplaced (k : Nat) (left : Expr) (tokens : List Token) :
    chainReading k left.unplaced (tokens.map Token.unplaced) =
      (chainReading k left tokens).unplaced Expr.unplaced := by
  match tokens with
  | [] =>
      rw [List.map_nil, chainReading_nil, chainReading_nil]
      rfl
  | token :: rest =>
      rw [List.map_cons]
      by_cases h : token.kind.looseness? = some (k + 1)
      · have h' : token.unplaced.kind.looseness? = some (k + 1) := h
        rw [chainReading_operator left h, chainReading_operator _ h',
          level_unplaced k rest]
        refine bind_unplaced fun mended right rest' hReading => ?_
        have hLess := Outcome.length_lt_of_reading hReading
        exact chain_unplaced k (.binary left token right) rest'
      · have h' : token.unplaced.kind.looseness? ≠ some (k + 1) := h
        rw [chainReading_stop left h, chainReading_stop _ h']
        rfl
termination_by (tokens.length, 0)

end

theorem expression_unplaced (tokens : List Token) :
    (expression (tokens.map Token.unplaced)).reading =
      (expression tokens).reading.unplaced Expr.unplaced :=
  level_unplaced loosest tokens

/-! ## Statements that hold no others -/

theorem readRest_unplaced (tokens : List Token) :
    (readRest (tokens.map Token.unplaced)).reading =
      (readRest tokens).reading.unplaced Stmt.unplaced := by
  simp only [readRest, reading_andThen, reading_map]
  rw [expect_unplaced]
  refine bind_unplaced fun _ _ tokens _ => ?_
  rw [expect_unplaced]
  refine bind_unplaced fun _ name tokens _ => ?_
  rw [expect_unplaced]
  refine bind_unplaced fun _ _ tokens _ => ?_
  rw [expect_unplaced]
  exact map_unplaced fun _ => rfl

theorem writeRest_unplaced (tokens : List Token) :
    (writeRest (tokens.map Token.unplaced)).reading =
      (writeRest tokens).reading.unplaced Stmt.unplaced := by
  simp only [writeRest, reading_andThen, reading_map]
  rw [expect_unplaced]
  refine bind_unplaced fun _ _ tokens _ => ?_
  rw [expression_unplaced]
  refine bind_unplaced fun _ value tokens _ => ?_
  rw [expect_unplaced]
  refine bind_unplaced fun _ _ tokens _ => ?_
  rw [expect_unplaced]
  exact map_unplaced fun _ => rfl

theorem ifHead_unplaced (tokens : List Token) :
    (ifHead (tokens.map Token.unplaced)).reading =
      (ifHead tokens).reading.unplaced Expr.unplaced := by
  simp only [ifHead, reading_andThen, reading_map]
  rw [expect_unplaced]
  refine bind_unplaced fun _ _ tokens _ => ?_
  rw [expression_unplaced]
  refine bind_unplaced fun _ condition tokens _ => ?_
  rw [expect_unplaced]
  refine bind_unplaced fun _ _ tokens _ => ?_
  rw [expect_unplaced]
  exact map_unplaced fun _ => rfl

theorem whileHead_unplaced (tokens : List Token) :
    (whileHead (tokens.map Token.unplaced)).reading =
      (whileHead tokens).reading.unplaced Expr.unplaced := by
  simp only [whileHead, reading_andThen, reading_map]
  rw [expect_unplaced]
  refine bind_unplaced fun _ _ tokens _ => ?_
  rw [expression_unplaced]
  refine bind_unplaced fun _ condition tokens _ => ?_
  rw [expect_unplaced]
  exact map_unplaced fun _ => rfl

theorem expressionStatement_unplaced (tokens : List Token) :
    (expressionStatement (tokens.map Token.unplaced)).reading =
      (expressionStatement tokens).reading.unplaced Stmt.unplaced := by
  simp only [expressionStatement, reading_andThen, reading_map]
  rw [expression_unplaced]
  refine bind_unplaced fun _ value tokens _ => ?_
  rw [expect_unplaced]
  exact map_unplaced fun _ => rfl

theorem assignmentRest_unplaced (name operator : Token) (tokens : List Token) :
    (assignmentRest name.unplaced operator.unplaced
        (tokens.map Token.unplaced)).reading =
      (assignmentRest name operator tokens).reading.unplaced Stmt.unplaced := by
  simp only [assignmentRest, reading_andThen, reading_map]
  rw [expression_unplaced]
  refine bind_unplaced fun _ value tokens _ => ?_
  rw [expect_unplaced]
  exact map_unplaced fun _ => rfl

theorem simple_unplaced (tokens : List Token) :
    (simple (tokens.map Token.unplaced)).reading =
      (simple tokens).reading.unplaced Stmt.unplaced := by
  match tokens with
  | [] => exact expressionStatement_unplaced []
  | [token] => exact expressionStatement_unplaced [token]
  | name :: operator :: rest =>
      by_cases h : name.kind = .identifier ∧ operator.kind.isAssignment = true
      · obtain ⟨hName, hOperator⟩ := h
        have hName' : name.unplaced.kind = .identifier := hName
        have hOperator' : operator.unplaced.kind.isAssignment = true :=
          hOperator
        rw [reading_simple_assign hName hOperator, List.map_cons, List.map_cons,
          reading_simple_assign hName' hOperator']
        exact assignmentRest_unplaced name operator rest
      · have hNone : ∀ next ∈ (operator :: rest).head?,
            ¬(name.kind = .identifier ∧ next.kind.isAssignment = true) := by
          rintro _ ⟨⟩
          exact h
        have hNone' : ∀ next ∈ ((operator :: rest).map Token.unplaced).head?,
            ¬(name.unplaced.kind = .identifier ∧
              next.kind.isAssignment = true) := by
          rintro _ ⟨⟩
          exact h
        rw [reading_simple_expression hNone, List.map_cons,
          reading_simple_expression hNone']
        exact expressionStatement_unplaced (name :: operator :: rest)

theorem names_unplaced (names tokens : List Token) :
    namesReading (names.map Token.unplaced) (tokens.map Token.unplaced) =
      (namesReading names tokens).unplaced (List.map Token.unplaced) := by
  match tokens with
  | [] =>
      rw [List.map_nil, namesReading_nil, namesReading_nil, ← List.map_reverse]
      rfl
  | token :: rest =>
      rw [List.map_cons]
      by_cases h : token.kind = .comma
      · have h' : token.unplaced.kind = .comma := h
        rw [namesReading_comma names h, namesReading_comma _ h',
          expect_unplaced]
        refine bind_unplaced fun mended name rest' hReading => ?_
        have hLess := Outcome.length_lt_of_reading hReading
        exact names_unplaced (name :: names) rest'
      · have h' : token.unplaced.kind ≠ .comma := h
        rw [namesReading_stop names h, namesReading_stop _ h',
          ← List.map_reverse]
        rfl
termination_by tokens.length

theorem declareAll_unplaced (type : Token) (names : List Token) :
    declareAll type.unplaced (names.map Token.unplaced) =
      (declareAll type names).unplaced := by
  have hBlock : Stmt.block ((names.map Token.unplaced).map
        (.declare type.unplaced)) =
      (Stmt.block (names.map (.declare type))).unplaced := by
    rw [Stmt.unplaced, Stmt.unplacedAll_eq_map, List.map_map, List.map_map]
    rfl
  match names with
  | [] | _ :: _ :: _ => exact hBlock
  | [name] => rfl

theorem declarationRest_unplaced (type : Token) (tokens : List Token) :
    (declarationRest type.unplaced (tokens.map Token.unplaced)).reading =
      (declarationRest type tokens).reading.unplaced Stmt.unplaced := by
  rw [reading_declarationRest, reading_declarationRest, expect_unplaced]
  refine bind_unplaced fun _ name tokens _ => ?_
  have hNames := names_unplaced [name] tokens
  rw [List.map_singleton] at hNames
  rw [hNames]
  refine bind_unplaced fun _ names tokens _ => ?_
  rw [expect_unplaced]
  exact map_unplaced fun _ => declareAll_unplaced type names

/-! ## Recovery -/

theorem resume_unplaced (previous : Token) (tokens : List Token) :
    resume previous.unplaced (tokens.map Token.unplaced) =
      (resume previous tokens).map Token.unplaced := by
  induction tokens generalizing previous with
  | nil => rfl
  | cons token rest ih =>
      rw [List.map_cons, resume, resume, ih]
      exact Eq.symm (apply_ite (List.map Token.unplaced) ..)

theorem recover_unplaced (tokens : List Token) :
    recover (tokens.map Token.unplaced) =
      (recover tokens).map Token.unplaced := by
  cases tokens with
  | nil => rfl
  | cons token rest => exact resume_unplaced token rest

/-! ## Statements inside of statements -/

mutual

theorem statement_unplaced (tokens : List Token) :
    (statement (tokens.map Token.unplaced)).reading =
      (statement tokens).reading.unplaced Stmt.unplaced := by
  match tokens with
  | [] =>
      rw [List.map_nil, reading_statement_nil]
      rfl
  | token :: rest =>
      have hSame := token.kind_unplaced
      rw [List.map_cons]
      by_cases hRead : token.kind = .read
      · rw [reading_statement_read hRead,
          reading_statement_read (hSame.trans hRead)]
        exact readRest_unplaced rest
      by_cases hWrite : token.kind = .write
      · rw [reading_statement_write hWrite,
          reading_statement_write (hSame.trans hWrite)]
        exact writeRest_unplaced rest
      by_cases hIf : token.kind = .ifWord
      · rw [reading_statement_if hIf, reading_statement_if (hSame.trans hIf),
          ifHead_unplaced]
        refine bind_unplaced fun mended condition rest' hReading => ?_
        have hLess := Outcome.length_lt_of_reading hReading
        exact branches_unplaced condition rest'
      by_cases hWhile : token.kind = .whileWord
      · rw [reading_statement_while hWhile,
          reading_statement_while (hSame.trans hWhile), whileHead_unplaced]
        refine bind_unplaced fun mended condition rest' hReading => ?_
        have hLess := Outcome.length_lt_of_reading hReading
        rw [statement_unplaced rest']
        exact map_unplaced fun _ => rfl
      by_cases hBlock : token.kind = .leftBrace
      · rw [reading_statement_block hBlock,
          reading_statement_block (hSame.trans hBlock),
          members_unplaced true rest]
        refine bind_unplaced fun _ stmts rest' _ => ?_
        rw [expect_unplaced]
        refine map_unplaced fun _ => ?_
        rw [Stmt.unplaced, Stmt.unplacedAll_eq_map]
      rw [reading_statement_simple hRead hWrite hIf hWhile hBlock,
        reading_statement_simple (hSame ▸ hRead) (hSame ▸ hWrite) (hSame ▸ hIf)
          (hSame ▸ hWhile) (hSame ▸ hBlock)]
      exact simple_unplaced (token :: rest)
termination_by (tokens.length, 0)

theorem branches_unplaced (condition : Expr) (tokens : List Token) :
    branchesReading condition.unplaced (tokens.map Token.unplaced) =
      (branchesReading condition tokens).unplaced Stmt.unplaced := by
  rw [branchesReading, branchesReading, statement_unplaced tokens]
  refine bind_unplaced fun mended thenPart rest hReading => ?_
  have hLess := Attempt.length_lt_of_reading hReading
  match rest with
  | [] => rfl
  | token :: rest' =>
      have hSame := token.kind_unplaced
      rw [List.map_cons]
      by_cases h : token.kind = .elseWord
      · have hLess' : rest'.length < tokens.length := Nat.lt_of_succ_lt hLess
        rw [elseReading, elseReading, if_pos h, if_pos (hSame.trans h),
          statement_unplaced rest']
        exact map_unplaced fun _ => rfl
      · rw [elseReading, elseReading, if_neg h, if_neg (hSame ▸ h)]
        rfl
termination_by (tokens.length, 1)

theorem declaration_unplaced (tokens : List Token) :
    (declaration (tokens.map Token.unplaced)).reading =
      (declaration tokens).reading.unplaced Stmt.unplaced := by
  match tokens with
  | [] =>
      rw [List.map_nil, reading_declaration_nil]
      rfl
  | token :: rest =>
      rw [List.map_cons]
      by_cases hType : token.kind = .long ∨ token.kind = .double
      · have hType' : token.unplaced.kind = .long ∨
            token.unplaced.kind = .double := hType
        rw [reading_declaration_type hType, reading_declaration_type hType']
        exact declarationRest_unplaced token rest
      · obtain ⟨hLong, hDouble⟩ := not_or.1 hType
        have hLong' : token.unplaced.kind ≠ .long := hLong
        have hDouble' : token.unplaced.kind ≠ .double := hDouble
        rw [reading_declaration_statement hLong hDouble,
          reading_declaration_statement hLong' hDouble']
        exact statement_unplaced (token :: rest)
termination_by (tokens.length, 1)

theorem members_unplaced (inBlock : Bool) (tokens : List Token) :
    (members inBlock (tokens.map Token.unplaced)).reading =
      (members inBlock tokens).reading.unplaced (List.map Stmt.unplaced) := by
  match tokens with
  | [] =>
      rw [List.map_nil, reading_members_nil]
      rfl
  | token :: rest =>
      have hSame := token.kind_unplaced
      rw [List.map_cons]
      by_cases hClosing : inBlock = true ∧ token.kind = .rightBrace
      · obtain ⟨rfl, hKind⟩ := hClosing
        rw [reading_members_closing hKind,
          reading_members_closing (hSame.trans hKind)]
        rfl
      · have hOpen : inBlock = true → token.kind ≠ .rightBrace :=
          fun hBlock hKind => hClosing ⟨hBlock, hKind⟩
        have hOpen' : inBlock = true → token.unplaced.kind ≠ .rightBrace :=
          hOpen
        rw [reading_members_cons hOpen, reading_members_cons hOpen',
          ← List.map_cons, declaration_unplaced (token :: rest)]
        refine mend_unplaced ?_ ?_
        · intro mended stmt rest' hReading
          have hLess := Attempt.length_lt_of_reading hReading
          rw [members_unplaced inBlock rest']
          exact map_unplaced fun _ => rfl
        · intro mended failure rest' hReading
          have hLe := (declaration (token :: rest)).length_rest_reading_le
          rw [hReading] at hLe
          have hLess := length_recover_lt_of_le (Nat.succ_pos rest.length) hLe
          rw [recover_unplaced]
          exact members_unplaced inBlock (recover rest')
termination_by (tokens.length, 2)

end

end Grammar

/-! ## Programs -/

/-- The program, with the positions in it forgotten. -/
def Program.unplaced (program : Program) : Program :=
  ⟨program.stmts.map Stmt.unplaced, program.errors.map SyntaxError.unplaced⟩

section Program

open Grammar (members members_unplaced)

theorem finishOf_unplaced (tokens : List Token) :
    Reader.finishOf (tokens.map Token.unplaced) =
      (Reader.finishOf tokens).unplaced := by
  have hFind : (tokens.map Token.unplaced).find? (·.kind = .endOfInput) =
      (tokens.find? (·.kind = .endOfInput)).map Token.unplaced :=
    List.find?_map
  rw [Reader.finishOf, Reader.finishOf, hFind, List.getLast?_map]
  cases tokens.find? (·.kind = .endOfInput) with
  | some token => rfl
  | none => cases tokens.getLast? <;> rfl

theorem readerOfTokens_unplaced (tokens : List Token) :
    Reader.ofTokens (tokens.map Token.unplaced) =
      { unread := (programTokens tokens).map Token.unplaced
        finish := (Reader.ofTokens tokens).finish.unplaced
        errors := #[] } := by
  have hFilter : (tokens.map Token.unplaced).filter
        (fun token => !token.kind.isComment) =
      (tokens.filter fun token => !token.kind.isComment).map
        Token.unplaced := List.filter_map
  rw [Reader.ofTokens, hFilter, finishOf_unplaced, List.takeWhile_map]
  rfl

theorem toError_unplaced (finish : Token) (failure : Grammar.Failure) :
    failure.unplaced.toError finish.unplaced =
      (failure.toError finish).unplaced := by
  obtain ⟨fault, found⟩ := failure
  cases found <;> rfl

/-- **Reading does not look at positions.** -/
theorem ofTokens_unplaced (tokens : List Token) :
    Program.ofTokens (tokens.map Token.unplaced) =
      (Program.ofTokens tokens).unplaced := by
  have hMembers := members_unplaced false (programTokens tokens)
  injection hMembers with hFailures hStmts _
  rw [Program.ofTokens, readerOfTokens_unplaced, Reader.program, hFailures,
    hStmts, List.map_map]
  refine congrArg (Program.mk _) ?_
  show List.map _ _ = List.map _ (List.map _ _)
  rw [List.map_map]
  exact List.map_congr_left fun failure _ => toError_unplaced _ failure

/-- Programs whose tokens differ in their positions, and in comments among
them, differ in positions only. -/
theorem unplaced_ofTokens_eq {first second : List Token}
    (h : (first.filter fun token => !token.kind.isComment).map
          (fun token => (token.kind, token.lexeme)) =
        (second.filter fun token => !token.kind.isComment).map
          fun token => (token.kind, token.lexeme)) :
    (Program.ofTokens first).unplaced = (Program.ofTokens second).unplaced := by
  have hTokens := congrArg (List.map fun entry : Token.Kind × String =>
    (⟨entry.1, entry.2, .start⟩ : Token)) h
  rw [List.map_map, List.map_map] at hTokens
  rw [← ofTokens_filter first, ← ofTokens_filter second, ← ofTokens_unplaced,
    ← ofTokens_unplaced]
  exact congrArg Program.ofTokens hTokens

end Program

end ImpFront
