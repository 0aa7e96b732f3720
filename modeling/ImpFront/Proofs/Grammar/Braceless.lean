import ImpFront.Proofs.Grammar.Concatenation
import ImpFront.Proofs.Grammar.Kept

/-!
# Statements without braces

Without braces no statement holds a sequence, so no rule mends anything: a
statement is read as a whole, or its only failure is that of the rule.
And if the tokens end with a semicolon then none of the failures is for
want of a token. For a semicolon is read by the last step of a statement
and by no other one, so whatever comes before that step has not come to the
end of the tokens, and finds the semicolon there if nothing else.

`Supplied` says both of a reading. It also tells whether the reading may
leave nothing, as a statement may and an expression or a head may not.

If there is only one semicolon then there is only one statement. When it is
read nothing is left, and when it is broken recovery finds no place to stop
in front of the semicolon, unless it meets a word that can begin another
statement.

## Main results

* `declaration_supplied` — nothing is mended, and no token is missing.
* `found_ne_nil_of_unopened` — in a sequence no token is missing either.
* `KeepsDecl.endsWithSemicolon` — a statement without braces ends with a
  semicolon.
* `LooksSingle.members_cases` — one statement, or one failure.
* `one_statement_or_one_error` — one broken statement has one error.
-/

namespace ImpFront

namespace Grammar

open Token (Kind)

/-! ## Tokens that are closed by a semicolon -/

/-- Some tokens without an opening brace, the last of them a semicolon. -/
structure Braceless (tokens : List Token) : Prop where
  nonempty : tokens ≠ []
  semicolonLast : SemicolonLast tokens
  unopened : ∀ token ∈ tokens, token.kind ≠ .leftBrace

namespace Braceless

variable {tokens rest : List Token} {token : Token}

theorem of_suffix (h : Braceless tokens) (hSuffix : rest <:+ tokens)
    (hRest : rest ≠ []) : Braceless rest where
  nonempty := hRest
  semicolonLast := h.semicolonLast.of_suffix hSuffix
  unopened other hMem := h.unopened other (hSuffix.subset hMem)

/-- Only behind the semicolon nothing is left. -/
theorem tail (h : Braceless (token :: rest)) (hKind : token.kind ≠ .semicolon) :
    Braceless rest := by
  refine h.of_suffix (List.suffix_cons token rest) ?_
  rintro rfl
  exact hKind (h.semicolonLast token rfl)

end Braceless

/-! ## Supplied readings -/

section Supplied

variable {α β : Type} {atEnd atEnd' : Prop} {tokens more : List Token}
  {rule : List Token → Reading α} {reading : Reading α}

/-- Nothing was mended, and a failure found a token. If nothing is left
then under a condition only. -/
inductive Supplied (atEnd : Prop) : Reading α → Prop
  | accept {value : α} {rest : List Token} (hLeft : rest = [] → atEnd) :
      Supplied atEnd (.accept [] value rest)
  | reject {failure : Failure} {rest : List Token}
      (hFound : failure.found ≠ []) : Supplied atEnd (.reject [] failure rest)

namespace Supplied

/-- A rule that leaves at least one token. -/
theorem accept_of_braceless {value : α} {rest : List Token}
    (h : Braceless rest) : Supplied atEnd (.accept [] value rest) :=
  .accept fun hNil => absurd hNil h.nonempty

theorem map (f : α → β) (h : Supplied atEnd reading) :
    Supplied atEnd (reading.map f) := by
  cases h with
  | accept hLeft =>
      rw [Reading.map_accept]
      exact .accept hLeft
  | reject hFound => exact .reject hFound

/-- A rule behind one that leaves a token. -/
theorem bind {next : α → List Token → Reading β}
    (h : Supplied False (rule tokens)) (hTokens : Braceless tokens)
    (hRule : Stable atEnd' more rule tokens)
    (hNext : ∀ value rest, rule tokens = .accept [] value rest →
      Braceless rest → Supplied atEnd (next value rest)) :
    Supplied atEnd ((rule tokens).bind next) := by
  generalize hReading : rule tokens = reading at h
  cases h with
  | @accept value rest hLeft =>
      rw [Reading.bind_accept]
      exact hNext value rest hReading
        (hTokens.of_suffix (hRule.suffix_of_accept hReading) hLeft)
  | reject hFound => exact .reject hFound

end Supplied

end Supplied

/-! ## Tokens and expressions -/

section Expression

variable {kind : Kind} {tokens : List Token}

/-- A rule that wants another token than the semicolon. -/
theorem expect_supplied (hKind : kind ≠ .semicolon) (fault : SyntaxFault)
    (h : Braceless tokens) :
    Supplied False (expect kind fault tokens).reading := by
  match tokens with
  | [] => exact absurd rfl h.nonempty
  | token :: rest =>
      by_cases hToken : token.kind = kind
      · rw [reading_expect_of_eq hToken]
        exact .accept_of_braceless (h.tail (hToken ▸ hKind))
      · rw [reading_expect_of_ne hToken]
        exact .reject (List.cons_ne_nil token rest)

/-- The last step of a statement. -/
theorem expect_supplied_end (fault : SyntaxFault) (h : Braceless tokens) :
    Supplied True (expect .semicolon fault tokens).reading := by
  match tokens with
  | [] => exact absurd rfl h.nonempty
  | token :: rest =>
      by_cases hToken : token.kind = .semicolon
      · rw [reading_expect_of_eq hToken]
        exact .accept fun _ => trivial
      · rw [reading_expect_of_ne hToken]
        exact .reject (List.cons_ne_nil token rest)

theorem atom_supplied (h : Braceless tokens) :
    Supplied False (atom tokens).reading := by
  match tokens with
  | [] => exact absurd rfl h.nonempty
  | token :: rest =>
      have hFound : token :: rest ≠ [] := List.cons_ne_nil token rest
      by_cases hName : token.kind = .identifier
      · rw [reading_atom_name hName]
        exact .accept_of_braceless (h.tail (by rw [hName]; decide))
      · cases hConstant : constant? token with
        | none =>
            rw [reading_atom_other hName hConstant]
            exact .reject hFound
        | some result =>
            have hKind : token.kind ≠ .semicolon := by
              intro hKind
              rw [constant?, hKind] at hConstant
              cases hConstant
            cases result with
            | ok value =>
                rw [reading_atom_constant hName hConstant]
                exact .accept_of_braceless (h.tail hKind)
            | error fault =>
                rw [reading_atom_unreadable hName hConstant]
                exact .reject hFound

mutual

theorem level_supplied (k : Nat) (tokens : List Token) (h : Braceless tokens) :
    Supplied False (level k tokens).reading := by
  match k, tokens with
  | 0, [] => exact absurd rfl h.nonempty
  | 0, token :: rest =>
      by_cases hUnary : token.kind.isUnary = true
      · have hRest := h.tail (by intro hKind; rw [hKind] at hUnary; cases hUnary)
        rw [reading_level_unary hUnary]
        exact (level_supplied 0 rest hRest).map _
      by_cases hOpening : token.kind = .leftParen
      · have hRest := h.tail (by rw [hOpening]; decide)
        rw [reading_level_group hOpening]
        refine (level_supplied loosest rest hRest).bind hRest
          (@level_stable [] loosest rest) ?_
        intro inner rest' _ hRest'
        exact (expect_supplied (by decide) _ hRest').map _
      rw [reading_level_atom hUnary hOpening]
      exact atom_supplied h
  | k + 1, tokens =>
      rw [reading_level_succ]
      refine (level_supplied k tokens h).bind h
        (@level_stable [] k tokens) ?_
      intro left rest hReading hRest
      have hLess := Outcome.length_lt_of_reading hReading
      exact chain_supplied k left rest hRest
termination_by (tokens.length, k)

theorem chain_supplied (k : Nat) (left : Expr) (tokens : List Token)
    (h : Braceless tokens) : Supplied False (chainReading k left tokens) := by
  match tokens with
  | [] => exact absurd rfl h.nonempty
  | token :: rest =>
      by_cases hOperator : token.kind.looseness? = some (k + 1)
      · have hRest := h.tail (by
          intro hKind; rw [hKind] at hOperator; cases hOperator)
        rw [chainReading_operator left hOperator]
        refine (level_supplied k rest hRest).bind hRest
          (@level_stable [] k rest) ?_
        intro right rest' hReading hRest'
        have hLess := Outcome.length_lt_of_reading hReading
        exact chain_supplied k _ rest' hRest'
      · rw [chainReading_stop left hOperator]
        exact .accept_of_braceless h
termination_by (tokens.length, 0)

end

theorem expression_supplied (h : Braceless tokens) :
    Supplied False (expression tokens).reading :=
  level_supplied loosest tokens h

end Expression

/-! ## Statements that hold no others -/

section Plain

variable {tokens : List Token}

/-- Behind a token that is wanted something must be left. -/
theorem Supplied.expect_bind {atEnd : Prop} {α : Type} {kind : Kind}
    {fault : SyntaxFault} {next : Token → List Token → Reading α}
    (hKind : kind ≠ .semicolon) (h : Braceless tokens)
    (hNext : ∀ token rest, Braceless rest → Supplied atEnd (next token rest)) :
    Supplied atEnd ((expect kind fault tokens).reading.bind next) :=
  (expect_supplied hKind fault h).bind h
    (@expect_stable True [] kind fault tokens)
    fun token rest _ hRest => hNext token rest hRest

/-- Behind an expression something must be left. -/
theorem Supplied.expression_bind {atEnd : Prop} {α : Type}
    {next : Expr → List Token → Reading α} (h : Braceless tokens)
    (hNext : ∀ value rest, Braceless rest → Supplied atEnd (next value rest)) :
    Supplied atEnd ((expression tokens).reading.bind next) :=
  (expression_supplied h).bind h (@expression_stable [] tokens)
    fun value rest _ hRest => hNext value rest hRest

open Supplied (expect_bind expression_bind)

theorem readRest_supplied (h : Braceless tokens) :
    Supplied True (readRest tokens).reading := by
  simp only [readRest, reading_andThen, reading_map]
  refine expect_bind (by decide) h fun _ tokens h => ?_
  refine expect_bind (by decide) h fun name tokens h => ?_
  refine expect_bind (by decide) h fun _ tokens h => ?_
  exact (expect_supplied_end _ h).map _

theorem writeRest_supplied (h : Braceless tokens) :
    Supplied True (writeRest tokens).reading := by
  simp only [writeRest, reading_andThen, reading_map]
  refine expect_bind (by decide) h fun _ tokens h => ?_
  refine expression_bind h fun value tokens h => ?_
  refine expect_bind (by decide) h fun _ tokens h => ?_
  exact (expect_supplied_end _ h).map _

theorem ifHead_supplied (h : Braceless tokens) :
    Supplied False (ifHead tokens).reading := by
  simp only [ifHead, reading_andThen, reading_map]
  refine expect_bind (by decide) h fun _ tokens h => ?_
  refine expression_bind h fun condition tokens h => ?_
  refine expect_bind (by decide) h fun _ tokens h => ?_
  exact (expect_supplied (by decide) _ h).map _

theorem whileHead_supplied (h : Braceless tokens) :
    Supplied False (whileHead tokens).reading := by
  simp only [whileHead, reading_andThen, reading_map]
  refine expect_bind (by decide) h fun _ tokens h => ?_
  refine expression_bind h fun condition tokens h => ?_
  exact (expect_supplied (by decide) _ h).map _

theorem expressionStatement_supplied (h : Braceless tokens) :
    Supplied True (expressionStatement tokens).reading := by
  simp only [expressionStatement, reading_andThen, reading_map]
  refine expression_bind h fun value tokens h => ?_
  exact (expect_supplied_end _ h).map _

theorem assignmentRest_supplied (name operator : Token)
    (h : Braceless tokens) :
    Supplied True (assignmentRest name operator tokens).reading := by
  simp only [assignmentRest, reading_andThen, reading_map]
  refine expression_bind h fun value tokens h => ?_
  exact (expect_supplied_end _ h).map _

theorem simple_supplied (h : Braceless tokens) :
    Supplied True (simple tokens).reading := by
  match tokens with
  | [] => exact absurd rfl h.nonempty
  | token :: rest =>
      by_cases hAssign : ∃ operator rest', rest = operator :: rest' ∧
          token.kind = .identifier ∧ operator.kind.isAssignment = true
      · obtain ⟨operator, rest', rfl, hName, hOperator⟩ := hAssign
        have hRest := h.tail (by rw [hName]; decide)
        have hKind : operator.kind ≠ .semicolon := by
          intro hKind
          rw [hKind] at hOperator
          cases hOperator
        rw [reading_simple_assign hName hOperator]
        exact assignmentRest_supplied token operator (hRest.tail hKind)
      · rw [reading_simple_expression]
        · exact expressionStatement_supplied h
        · rintro operator hHead ⟨hName, hOperator⟩
          obtain ⟨rest', rfl⟩ := List.head?_eq_some_iff.1 hHead
          exact hAssign ⟨operator, rest', rfl, hName, hOperator⟩

theorem namesReading_supplied (names tokens : List Token)
    (h : Braceless tokens) : Supplied False (namesReading names tokens) := by
  match tokens with
  | [] => exact absurd rfl h.nonempty
  | token :: rest =>
      by_cases hComma : token.kind = .comma
      · have hRest := h.tail (by rw [hComma]; decide)
        rw [namesReading_comma names hComma]
        refine (expect_supplied (by decide) _ hRest).bind hRest
          (@expect_stable True [] .identifier .anotherDeclarationName rest) ?_
        intro name rest' hReading hRest'
        have hLess := Outcome.length_lt_of_reading hReading
        exact namesReading_supplied (name :: names) rest' hRest'
      · rw [namesReading_stop names hComma]
        exact .accept_of_braceless h
termination_by tokens.length

theorem declarationRest_supplied (type : Token) (h : Braceless tokens) :
    Supplied True (declarationRest type tokens).reading := by
  rw [reading_declarationRest]
  refine expect_bind (by decide) h fun name tokens h => ?_
  refine (namesReading_supplied [name] tokens h).bind h
    (@namesReading_stable [] [name] tokens) fun names tokens _ h => ?_
  exact (expect_supplied_end _ h).map _

end Plain

/-! ## Statements -/

section Statement

mutual

theorem statement_supplied (tokens : List Token) (h : Braceless tokens) :
    Supplied True (statement tokens).reading := by
  match tokens with
  | [] => exact absurd rfl h.nonempty
  | token :: rest =>
      by_cases hRead : token.kind = .read
      · rw [reading_statement_read hRead]
        exact readRest_supplied (h.tail (by rw [hRead]; decide))
      by_cases hWrite : token.kind = .write
      · rw [reading_statement_write hWrite]
        exact writeRest_supplied (h.tail (by rw [hWrite]; decide))
      by_cases hIf : token.kind = .ifWord
      · have hRest := h.tail (by rw [hIf]; decide)
        rw [reading_statement_if hIf]
        refine (ifHead_supplied hRest).bind hRest
          (@ifHead_stable True [] rest) ?_
        intro condition rest' hReading hRest'
        have hLess := Outcome.length_lt_of_reading hReading
        exact branchesReading_supplied condition rest' hRest'
      by_cases hWhile : token.kind = .whileWord
      · have hRest := h.tail (by rw [hWhile]; decide)
        rw [reading_statement_while hWhile]
        refine (whileHead_supplied hRest).bind hRest
          (@whileHead_stable True [] rest) ?_
        intro condition rest' hReading hRest'
        have hLess := Outcome.length_lt_of_reading hReading
        exact (statement_supplied rest' hRest').map _
      have hBlock := h.unopened token List.mem_cons_self
      rw [reading_statement_simple hRead hWrite hIf hWhile hBlock]
      exact simple_supplied h
termination_by (tokens.length, 0)

theorem branchesReading_supplied (condition : Expr) (tokens : List Token)
    (h : Braceless tokens) :
    Supplied True (branchesReading condition tokens) := by
  have hThen := statement_supplied tokens h
  rw [branchesReading]
  cases hReading : (statement tokens).reading with
  | reject mended failure rest =>
      rw [hReading] at hThen
      cases hThen with
      | reject hFound => exact .reject hFound
  | accept mended thenPart rest =>
      have hLess := Attempt.length_lt_of_reading hReading
      have hSuffix := (@statement_stable [] tokens).suffix_of_accept hReading
      rw [hReading] at hThen
      cases hThen
      rw [Reading.bind_accept]
      match rest with
      | [] => exact .accept fun _ => trivial
      | token :: rest' =>
          by_cases hElse : token.kind = .elseWord
          · have hLeft := h.of_suffix hSuffix (List.cons_ne_nil token rest')
            have hLess' : rest'.length < tokens.length :=
              Nat.lt_of_succ_lt hLess
            rw [elseReading, if_pos hElse]
            exact (statement_supplied rest'
              (hLeft.tail (by rw [hElse]; decide))).map _
          · rw [elseReading, if_neg hElse]
            exact .accept fun _ => trivial
termination_by (tokens.length, 1)

end

/-- A statement without braces mends nothing, and finds a token where it is
broken. -/
theorem declaration_supplied {tokens : List Token} (h : Braceless tokens) :
    Supplied True (declaration tokens).reading := by
  match tokens with
  | [] => exact absurd rfl h.nonempty
  | token :: rest =>
      by_cases hType : token.kind = .long ∨ token.kind = .double
      · rw [reading_declaration_type hType]
        refine declarationRest_supplied token (h.tail ?_)
        rcases hType with hType | hType <;> rw [hType] <;> decide
      · obtain ⟨hLong, hDouble⟩ := not_or.1 hType
        rw [reading_declaration_statement hLong hDouble]
        exact statement_supplied (token :: rest) h

/-- No token is missing in a sequence that ends with a semicolon and opens
no block. -/
theorem found_ne_nil_of_unopened {tokens : List Token}
    (hLast : SemicolonLast tokens)
    (hUnopened : ∀ token ∈ tokens, token.kind ≠ .leftBrace) :
    ∀ failure ∈ (members false tokens).failures, failure.found ≠ [] := by
  match tokens with
  | [] =>
      rw [members_nil]
      exact List.forall_mem_nil _
  | token :: rest =>
      have hDecl := declaration_supplied
        ⟨List.cons_ne_nil token rest, hLast, hUnopened⟩
      have hStable := @declaration_stable [] (token :: rest)
      have hLater : ∀ later, later <:+ token :: rest →
          later.length < (token :: rest).length →
          ∀ failure ∈ (members false later).failures, failure.found ≠ [] :=
        fun later hSuffix hLess => found_ne_nil_of_unopened
          (hLast.of_suffix hSuffix)
          fun other hMem => hUnopened other (hSuffix.subset hMem)
      cases hReading : (declaration (token :: rest)).reading with
      | accept mended stmt left =>
          have hLess := Attempt.length_lt_of_reading hReading
          have hLeft := hStable.suffix_of_accept hReading
          rw [members_of_accept outside_ne_rightBrace hReading]
          rw [hReading] at hDecl
          cases hDecl
          exact hLater left hLeft hLess
      | reject mended failure left =>
          have hLeft := hStable.suffix_of_reject hReading
          have hLess : (recover left).length < (token :: rest).length :=
            length_recover_lt_of_le (Nat.succ_pos _) hLeft.length_le
          rw [members_of_reject outside_ne_rightBrace hReading]
          rw [hReading] at hDecl
          cases hDecl with
          | reject hFound =>
              refine List.forall_mem_cons.2 ⟨hFound, ?_⟩
              exact hLater _ ((recover_suffix left).trans hLeft) hLess
termination_by tokens.length
decreasing_by exact hLess

end Statement

/-! ## One semicolon -/

section OneSemicolon

variable {tokens rest : List Token} {stmt : Stmt}

/-- A semicolon is among the tokens. -/
def HasSemicolon (tokens : List Token) : Prop :=
  ∃ token ∈ tokens, token.kind = .semicolon

/-- There is a last token, and it is a semicolon. -/
def EndsWithSemicolon (tokens : List Token) : Prop :=
  ∃ last ∈ tokens.getLast?, last.kind = .semicolon

theorem EndsWithSemicolon.hasSemicolon (h : EndsWithSemicolon tokens) :
    HasSemicolon tokens := by
  obtain ⟨last, hMem, hKind⟩ := h
  exact ⟨last, List.mem_of_getLast? hMem, hKind⟩

theorem EndsWithSemicolon.append_left (h : EndsWithSemicolon tokens)
    (before : List Token) : EndsWithSemicolon (before ++ tokens) := by
  obtain ⟨last, hMem, hKind⟩ := h
  exact ⟨last, List.mem_getLast?_append_of_mem_getLast? hMem, hKind⟩

theorem IsStmt.endsWithSemicolon_of_plain (h : IsStmt tokens stmt)
    (hPlain : stmt.isPlain = true) : EndsWithSemicolon tokens := by
  cases h with
  | read _ _ _ _ hEnd => exact ⟨_, by simp, hEnd⟩
  | write _ _ _ _ hEnd => exact ⟨_, by simp [List.getLast?_cons], hEnd⟩
  | assign _ _ _ hEnd => exact ⟨_, by simp [List.getLast?_cons], hEnd⟩
  | expression _ hEnd => exact ⟨_, by simp, hEnd⟩
  | ifThen => cases hPlain
  | ifThenElse => cases hPlain
  | whileLoop => cases hPlain
  | block => cases hPlain

/-- Only a block can end without a semicolon. -/
theorem KeepsStmt.endsWithSemicolon {tokens : List Token} {stmt : Stmt}
    (h : KeepsStmt tokens stmt)
    (hUnopened : ∀ token ∈ tokens, token.kind ≠ .leftBrace) :
    EndsWithSemicolon tokens := by
  match h with
  | .plain hStmt hPlain => exact hStmt.endsWithSemicolon_of_plain hPlain
  | @KeepsStmt.ifThen word head first _ _ _ _ hFirst =>
      have hInside : ∀ token ∈ first, token.kind ≠ .leftBrace :=
        fun token hMem => hUnopened token (by simp [hMem])
      exact (hFirst.endsWithSemicolon hInside).append_left (word :: head)
  | @KeepsStmt.ifThenElse word elseWord head first second _ _ _ _ _ _ _
      hSecond =>
      have hInside : ∀ token ∈ second, token.kind ≠ .leftBrace :=
        fun token hMem => hUnopened token (by simp [hMem])
      have hLast := (hSecond.endsWithSemicolon hInside).append_left
        (word :: (head ++ (first ++ [elseWord])))
      simpa using hLast
  | @KeepsStmt.whileLoop word head inside _ _ _ _ hBody =>
      have hInside : ∀ token ∈ inside, token.kind ≠ .leftBrace :=
        fun token hMem => hUnopened token (by simp [hMem])
      exact (hBody.endsWithSemicolon hInside).append_left (word :: head)
  | .block hOpening _ _ =>
      exact absurd hOpening (hUnopened _ List.mem_cons_self)

theorem KeepsDecl.endsWithSemicolon (h : KeepsDecl tokens stmt)
    (hUnopened : ∀ token ∈ tokens, token.kind ≠ .leftBrace) :
    EndsWithSemicolon tokens := by
  cases h with
  | names _ _ _ hEnd => exact ⟨_, by simp [List.getLast?_cons], hEnd⟩
  | statement hStmt => exact hStmt.endsWithSemicolon hUnopened

/-- Recovery does not stop in front of a semicolon at the end if no word
tells it to. -/
theorem resume_eq_nil {previous : Token}
    (hSemicolon : ∀ token ∈ (previous :: tokens).dropLast,
      token.kind ≠ .semicolon)
    (hWords : ∀ token ∈ tokens, token.kind.beginsStatement = false) :
    resume previous tokens = [] := by
  induction tokens generalizing previous with
  | nil => rfl
  | cons token rest ih =>
      rw [List.dropLast_cons_cons, List.forall_mem_cons] at hSemicolon
      rw [List.forall_mem_cons] at hWords
      have hGoOn : ¬(previous.kind = .semicolon ||
          token.kind.beginsStatement) = true := by
        simp [hSemicolon.1, hWords.1]
      rw [resume, if_neg hGoOn]
      exact ih hSemicolon.2 hWords.2

/-- The tokens look like those of one statement, be they one or not: a
semicolon stands at the end and nowhere else, no block is opened, and words
that can begin other statements stand only in front. -/
structure LooksSingle (tokens : List Token) : Prop
    extends Braceless tokens where
  onlySemicolon : ∀ token ∈ tokens.dropLast, token.kind ≠ .semicolon
  noWords : ∀ token ∈ tokens.tail, token.kind.beginsStatement = false

namespace LooksSingle

/-- Wherever recovery begins it passes over all that is left. -/
theorem recover_eq_nil (h : LooksSingle tokens) (hSuffix : rest <:+ tokens) :
    recover rest = [] := by
  obtain ⟨before, rfl⟩ := hSuffix
  cases rest with
  | nil => rfl
  | cons token rest =>
      refine resume_eq_nil ?_ ?_
      · intro other hMem
        refine h.onlySemicolon other ?_
        rw [List.dropLast_append_cons]
        exact List.mem_append_right before hMem
      · intro other hMem
        have hTail := (List.suffix_append before (token :: rest)).sublist.tail
        exact h.noWords other (hTail.subset hMem)

/-- Behind a statement that was read nothing is left. -/
theorem rest_eq_nil (h : LooksSingle (tokens ++ rest))
    (hDecl : KeepsDecl tokens stmt) : rest = [] := by
  have hUnopened : ∀ token ∈ tokens, token.kind ≠ .leftBrace :=
    fun token hMem => h.unopened token (List.mem_append_left rest hMem)
  obtain ⟨semicolon, hMem, hKind⟩ :=
    (hDecl.endsWithSemicolon hUnopened).hasSemicolon
  cases rest with
  | nil => rfl
  | cons token rest =>
      refine absurd hKind (h.onlySemicolon semicolon ?_)
      rw [List.dropLast_append_cons]
      exact List.mem_append_left _ hMem

/-- One statement and no failure, or one failure and no statement. -/
theorem members_cases (h : LooksSingle tokens) :
    (∃ stmt, members false tokens = ⟨[stmt], [], []⟩) ∨
      ∃ failure, members false tokens = ⟨[], [failure], []⟩ ∧
        failure.found ≠ [] ∧ failure.found <:+ tokens := by
  match tokens with
  | [] => exact absurd rfl h.nonempty
  | token :: rest =>
      have hDecl := declaration_supplied h.toBraceless
      have hStable := @declaration_stable [] (token :: rest)
      cases hReading : (declaration (token :: rest)).reading with
      | accept mended stmt left =>
          have hKeeps := declaration_keeps token rest
          rw [hReading] at hKeeps hDecl
          obtain ⟨phrase, hTokens, hPhrase⟩ := hKeeps
          cases hDecl
          rw [hTokens] at h
          rw [h.rest_eq_nil hPhrase] at hReading
          rw [members_of_accept outside_ne_rightBrace hReading, members_nil]
          exact .inl ⟨stmt, rfl⟩
      | reject mended failure left =>
          have hLeft := hStable.suffix_of_reject hReading
          have hFoundSuffix := hStable.suffix
          rw [hReading] at hDecl hFoundSuffix
          cases hDecl with
          | reject hFound =>
              rw [members_of_reject outside_ne_rightBrace hReading,
                h.recover_eq_nil hLeft, members_nil]
              exact .inr ⟨failure, rfl, hFound, hFoundSuffix⟩

end LooksSingle

end OneSemicolon

end Grammar

open Grammar

/-- **One broken statement has one error.** Let the only semicolon of some
tokens be at their end, let them open no block, and let no word that can
begin a statement stand behind the first token. Then they are read as one
statement without an error, or else no statement is read and there is one
error, which is about one of the tokens. -/
theorem one_statement_or_one_error {tokens : List Token}
    (h : LooksSingle (programTokens tokens)) :
    (∃ stmt, (Program.ofTokens tokens).stmts = [stmt]) ∧
        (Program.ofTokens tokens).errors = [] ∨
      (Program.ofTokens tokens).stmts = [] ∧
        ∃ error, (Program.ofTokens tokens).errors = [error] ∧
          error.token ∈ programTokens tokens := by
  have hErrors := errors_ofTokens tokens
  have hStmts : (Program.ofTokens tokens).stmts =
      (members false (programTokens tokens)).stmts := rfl
  rcases h.members_cases with ⟨stmt, hMembers⟩ | ⟨failure, hMembers, hFound, hSuffix⟩
  · rw [hMembers] at hErrors hStmts
    exact .inl ⟨⟨stmt, hStmts⟩, hErrors⟩
  · rw [hMembers] at hErrors hStmts
    refine .inr ⟨hStmts, _, hErrors, ?_⟩
    obtain ⟨token, found, hCons⟩ := List.exists_cons_of_ne_nil hFound
    have hToken : (failure.toError (Reader.ofTokens tokens).finish).token =
        token := by
      rw [Failure.toError, hCons]
      rfl
    rw [hToken]
    exact hSuffix.subset (hCons ▸ List.mem_cons_self)

/-- In `if ( x then 7 ;` a parenthesis is missing. Recovery comes to the
semicolon, so the rest of the statement is not read on its own. -/
theorem one_error_of_missing_parenthesis :
    let tokens : List Token := [⟨.ifWord, "if", .start⟩,
      ⟨.leftParen, "(", .start⟩, ⟨.identifier, "x", .start⟩,
      ⟨.thenWord, "then", .start⟩, ⟨.integer, "7", .start⟩,
      ⟨.semicolon, ";", .start⟩]
    LooksSingle (programTokens tokens) ∧
      (Program.ofTokens tokens).errors =
        [⟨.ifClosing, ⟨.thenWord, "then", .start⟩⟩] ∧
      (Program.ofTokens tokens).stmts = [] := by
  intro tokens
  have hSingle : LooksSingle (programTokens tokens) :=
    { nonempty := by decide
      semicolonLast := by unfold SemicolonLast; decide
      unopened := by decide
      onlySemicolon := by decide
      noWords := by decide }
  have hErrors : (Program.ofTokens tokens).errors =
      [⟨.ifClosing, ⟨.thenWord, "then", .start⟩⟩] := by cbv
  refine ⟨hSingle, hErrors, ?_⟩
  rcases one_statement_or_one_error hSingle with ⟨_, hNone⟩ | ⟨hStmts, _⟩
  · rw [hErrors] at hNone
    cases hNone
  · exact hStmts

end ImpFront
