import ImpFront.Proofs.Grammar.Reading

/-!
# Rules are stable under tokens added behind

What a rule does to some tokens it still does when more tokens stand behind
them: the added tokens are then found at the end of all that it leaves. A
verdict ends at the first fault; here recovery has its part as well, so
whole readings are compared.

Two things can make a rule notice what is added. A failure can be for want
of a token, and then it found none; a reading without such failures is
called `Firm`. And a rule that ends only by the token behind it, like a
chain of operators, may have come to the end of the tokens. `Stable` takes
a condition under which this does no harm: none does for an expression, and
behind a statement it is enough that no `else` is added.

Where a rule rejects, its reading tells as well where recovery begins. That
is at the fault itself or, if a constant cannot be read, just behind it
(`Reading.Stands`).

## Main results

* `Stable.bind`, `Stable.mend` — how rules are put together.
* `expression_stable`, `declarationRest_stable` — rules without recursion
  into statements.
* `recover_append_of_ne_nil` — recovery.
* `statement_stable`, `declaration_stable`, `members_stable` — the rules
  that hold statements.
-/

namespace ImpFront.Grammar

open Token (Kind)

/-! ## Readings of longer lists -/

/-- The same failure in front of more tokens. -/
def Failure.onto (more : List Token) (failure : Failure) : Failure :=
  ⟨failure.fault, failure.found ++ more⟩

namespace Reading

variable {α β : Type} {more : List Token}

/-- The same reading in front of more tokens. -/
def onto (more : List Token) : Reading α → Reading α
  | accept mended value rest =>
    accept (mended.map (·.onto more)) value (rest ++ more)
  | reject mended failure rest =>
    reject (mended.map (·.onto more)) (failure.onto more) (rest ++ more)

/-- The tokens that a reading leaves, or what it found instead of what was
wanted. -/
def left : Reading α → List Token
  | accept _ _ rest => rest
  | reject _ failure _ => failure.found

/-- No failure is for want of a token. -/
def Firm (reading : Reading α) : Prop :=
  ∀ failure ∈ reading.failures, failure.found ≠ []

/-- Reading goes on where the fault was found, or behind the constant that
the fault is about. -/
def Stands : Reading α → Prop
  | accept _ _ _ => True
  | reject _ failure rest => failure.found = rest ∨
    ∃ token, failure.found = token :: rest ∧ constant? token ≠ none

theorem onto_after (failures : List Failure) (reading : Reading α) :
    (reading.after failures).onto more =
      (reading.onto more).after (failures.map (·.onto more)) := by
  cases reading <;> simp only [after, onto, List.map_append]

@[simp] theorem left_after (failures : List Failure) (reading : Reading α) :
    (reading.after failures).left = reading.left := by
  cases reading <;> rfl

theorem stands_after {failures : List Failure} {reading : Reading α} :
    (reading.after failures).Stands ↔ reading.Stands := by
  cases reading <;> exact Iff.rfl

theorem firm_after {failures : List Failure} {reading : Reading α} :
    (reading.after failures).Firm ↔
      (∀ failure ∈ failures, failure.found ≠ []) ∧ reading.Firm := by
  simp only [Firm, failures_after, List.mem_append, or_imp, forall_and]

/-- What was wanted is not there, and so nothing is read. -/
theorem not_firm_of_missing {reading : Reading α} {mended : List Failure}
    {fault : SyntaxFault} {rest : List Token}
    (h : reading = .reject mended ⟨fault, []⟩ rest) : ¬reading.Firm := by
  intro hFirm
  rw [h] at hFirm
  have hMem : ⟨fault, []⟩ ∈ (Reading.reject mended ⟨fault, []⟩ rest :
      Reading α).failures :=
    List.mem_append_right mended (List.mem_singleton_self _)
  exact hFirm _ hMem rfl

end Reading

/-- In front of more tokens the rule does what it does to the tokens alone.
If nothing of them is left then this is only said under a condition. -/
structure Stable {α : Type} (atEnd : Prop) (more : List Token)
    (rule : List Token → Reading α) (tokens : List Token) : Prop where
  suffix : (rule tokens).left <:+ tokens
  stands : (rule tokens).Stands
  onto : (rule tokens).Firm → ((rule tokens).left = [] → atEnd) →
    rule (tokens ++ more) = (rule tokens).onto more

namespace Stable

variable {α β : Type} {atEnd atEnd' : Prop} {more tokens rest : List Token}
  {rule other : List Token → Reading α} {token : Token}

/-- A rule that reads nothing and accepts. -/
theorem accept (value : α) :
    Stable atEnd more (Reading.accept [] value) tokens where
  suffix := List.suffix_rfl
  stands := trivial
  onto _ _ := rfl

/-- A rule that reads nothing and rejects. -/
theorem reject (fault : SyntaxFault) :
    Stable atEnd more
      (fun tokens => (.reject [] ⟨fault, tokens⟩ tokens : Reading α))
      tokens where
  suffix := List.suffix_rfl
  stands := .inl rfl
  onto _ _ := rfl

/-- A rule that cannot do without another token. -/
theorem of_missing {fault : SyntaxFault}
    (h : rule tokens = .reject [] ⟨fault, []⟩ []) :
    Stable atEnd more rule tokens where
  suffix := by rw [h]; exact List.nil_suffix
  stands := by rw [h]; exact .inl rfl
  onto hFirm _ := absurd hFirm (Reading.not_firm_of_missing h)

/-- A rule that came to the end of the tokens and would go on. -/
theorem of_open {value : α} (h : rule tokens = .accept [] value []) :
    Stable False more rule tokens where
  suffix := by rw [h]; exact List.nil_suffix
  stands := by rw [h]; trivial
  onto _ hLeft := by
    rw [h] at hLeft
    exact (hLeft rfl).elim

/-- A rule that does what another one does on the end of the tokens. -/
theorem of_eq (h : Stable atEnd more rule rest) (hRest : rest <:+ tokens)
    (hRule : other tokens = rule rest)
    (hMore : other (tokens ++ more) = rule (rest ++ more)) :
    Stable atEnd more other tokens where
  suffix := by
    rw [hRule]
    exact h.suffix.trans hRest
  stands := by
    rw [hRule]
    exact h.stands
  onto := by
    rw [hRule, hMore]
    exact h.onto

/-- A rule that reads the token in front and goes on with another one. -/
theorem cons (h : Stable atEnd more rule rest)
    (hRule : ∀ rest, other (token :: rest) = rule rest) :
    Stable atEnd more other (token :: rest) :=
  h.of_eq (List.suffix_cons token rest) (hRule rest) (hRule (rest ++ more))

/-- A rule that does what another one does with the token in front. -/
theorem follows (h : Stable atEnd more rule (token :: rest))
    (hRule : ∀ rest, other (token :: rest) = rule (token :: rest)) :
    Stable atEnd more other (token :: rest) :=
  h.of_eq List.suffix_rfl (hRule rest) (hRule (rest ++ more))

/-! ### What the two results of a rule come to -/

section Cases

variable {mended : List Failure} {failure : Failure} {value : α}

theorem suffix_of_accept (h : Stable atEnd more rule tokens)
    (hRule : rule tokens = .accept mended value rest) : rest <:+ tokens := by
  have hSuffix := h.suffix
  rw [hRule] at hSuffix
  exact hSuffix

/-- Where a rule rejects, reading goes on in the tokens. -/
theorem suffix_of_reject (h : Stable atEnd more rule tokens)
    (hRule : rule tokens = .reject mended failure rest) : rest <:+ tokens := by
  have hFound := h.suffix
  have hStands := h.stands
  rw [hRule] at hFound hStands
  obtain hRest | ⟨token, hRest, _⟩ := hStands
  · rw [← hRest]
    exact hFound
  · exact (List.suffix_cons token rest).trans (hRest ▸ hFound)

theorem append_of_accept (h : Stable atEnd more rule tokens)
    (hRule : rule tokens = .accept mended value rest)
    (hMended : ∀ failure ∈ mended, failure.found ≠ [])
    (hAtEnd : rest = [] → atEnd) :
    rule (tokens ++ more) =
      .accept (mended.map (·.onto more)) value (rest ++ more) := by
  have hOnto := h.onto
  rw [hRule] at hOnto
  exact hOnto hMended hAtEnd

/-- A failure that found a token is not the end of the tokens. -/
theorem append_of_reject (h : Stable atEnd more rule tokens)
    (hRule : rule tokens = .reject mended failure rest)
    (hFirm : ∀ other ∈ mended ++ [failure], other.found ≠ []) :
    rule (tokens ++ more) =
      .reject (mended.map (·.onto more)) (failure.onto more) (rest ++ more) := by
  have hOnto := h.onto
  rw [hRule] at hOnto
  have hFound : failure.found ≠ [] :=
    hFirm failure (List.mem_append_right mended (List.mem_singleton_self _))
  exact hOnto hFirm fun hNil => absurd hNil hFound

end Cases

/-! ### Rules behind rules -/

/-- A rule that goes on with another one, behind failures which were
mended. -/
theorem of_after {failures : List Failure} (h : Stable atEnd more rule rest)
    (hRest : rest <:+ tokens) (hRule : other tokens = (rule rest).after failures)
    (hMore : (∀ failure ∈ failures, failure.found ≠ []) → (rule rest).Firm →
      ((rule rest).left = [] → atEnd) →
      other (tokens ++ more) =
        (rule (rest ++ more)).after (failures.map (·.onto more))) :
    Stable atEnd more other tokens where
  suffix := by
    rw [hRule, Reading.left_after]
    exact h.suffix.trans hRest
  stands := by
    rw [hRule]
    exact Reading.stands_after.2 h.stands
  onto := by
    rw [hRule, Reading.firm_after, Reading.left_after]
    rintro ⟨hFailures, hFirm⟩ hLeft
    rw [hMore hFailures hFirm hLeft, h.onto hFirm hLeft, Reading.onto_after]

/-- A rule behind a rule. If the second one accepts nothing as well then
the first one may have left nothing. -/
theorem bind {next : α → List Token → Reading β}
    (hRule : Stable atEnd more rule tokens)
    (hNext : ∀ mended value rest, rule tokens = .accept mended value rest →
      Stable atEnd' more (next value) rest)
    (hEnd : ∀ value, (next value []).Firm → atEnd' → atEnd) :
    Stable atEnd' more (fun tokens => (rule tokens).bind next) tokens := by
  cases hFirst : rule tokens with
  | accept mended value rest =>
      have hSecond := hNext mended value rest hFirst
      refine hSecond.of_after (hRule.suffix_of_accept hFirst)
        (by rw [hFirst]; rfl) ?_
      intro hMended hFirm hLeft
      -- of no tokens the second rule leaves none, so its own condition is met
      have hAtEnd : rest = [] → atEnd := by
        rintro rfl
        exact hEnd value hFirm (hLeft (List.suffix_nil.1 hSecond.suffix))
      rw [hRule.append_of_accept hFirst hMended hAtEnd]
      rfl
  | reject mended failure rest =>
      have hSuffix := hRule.suffix
      have hStands := hRule.stands
      rw [hFirst] at hSuffix hStands
      constructor
      · rw [hFirst]
        exact hSuffix
      · rw [hFirst]
        exact hStands
      · rw [hFirst]
        intro hFirm _
        show (rule (tokens ++ more)).bind next = _
        rw [hRule.append_of_reject hFirst hFirm]
        rfl

theorem map (f : α → β) (hRule : Stable atEnd more rule tokens) :
    Stable atEnd more (fun tokens => (rule tokens).map f) tokens :=
  hRule.bind (fun _ value _ _ => accept (f value)) fun _ _ h => h

/-- A rule behind a rule whose failure is mended, in a sequence that must
not come to the end of the tokens. -/
theorem mend {accepted : α → List Token → Reading β}
    {rejected : List Token → Reading β} (hRule : Stable atEnd more rule tokens)
    (hAccepted : ∀ mended value rest, rule tokens = .accept mended value rest →
      Stable False more (accepted value) rest)
    (hRejected : ∀ mended failure rest,
      rule tokens = .reject mended failure rest →
      Stable False more rejected rest) :
    Stable False more
      (fun tokens => (rule tokens).mend accepted rejected) tokens := by
  cases hFirst : rule tokens with
  | accept mended value rest =>
      have hSecond := hAccepted mended value rest hFirst
      refine hSecond.of_after (hRule.suffix_of_accept hFirst)
        (by rw [hFirst]; rfl) ?_
      intro hMended _ hLeft
      have hAtEnd : rest = [] → atEnd := by
        rintro rfl
        exact (hLeft (List.suffix_nil.1 hSecond.suffix)).elim
      rw [hRule.append_of_accept hFirst hMended hAtEnd]
      rfl
  | reject mended failure rest =>
      refine (hRejected mended failure rest hFirst).of_after
        (hRule.suffix_of_reject hFirst) (by rw [hFirst]; rfl) ?_
      intro hMended _ _
      rw [hRule.append_of_reject hFirst hMended, List.map_append]
      rfl

end Stable

/-! ## Tokens and expressions -/

section Expression

variable {atEnd : Prop} {more : List Token}

theorem expect_stable (kind : Kind) (fault : SyntaxFault)
    (tokens : List Token) :
    Stable atEnd more (fun tokens => (expect kind fault tokens).reading)
      tokens := by
  cases tokens with
  | nil => exact .of_missing rfl
  | cons token rest =>
      by_cases h : token.kind = kind
      · exact .cons (.accept token) fun rest => reading_expect_of_eq h rest
      · exact .follows (.reject fault) fun rest => reading_expect_of_ne h rest

theorem atom_stable (tokens : List Token) :
    Stable atEnd more (fun tokens => (atom tokens).reading) tokens := by
  cases tokens with
  | nil => exact .of_missing rfl
  | cons token rest =>
      by_cases hName : token.kind = .identifier
      · exact .cons (.accept _) fun rest => reading_atom_name hName
      · match h : constant? token with
        | some (.ok value) =>
            exact .cons (.accept _) fun rest => reading_atom_constant hName h
        | some (.error fault) =>
            have hAtom : ∀ rest, (atom (token :: rest)).reading =
                .reject [] ⟨fault, token :: rest⟩ rest :=
              fun rest => reading_atom_unreadable hName h
            -- here alone reading goes on behind the token that was found
            have hConstant : constant? token ≠ none := by rw [h]; nofun
            constructor
            · rw [hAtom]
              exact List.suffix_rfl
            · rw [hAtom]
              exact .inr ⟨token, rfl, hConstant⟩
            · intro _ _
              rw [List.cons_append, hAtom, hAtom]
              rfl
        | none =>
            exact .follows (.reject _) fun rest => reading_atom_other hName h

mutual

theorem level_stable (k : Nat) (tokens : List Token) :
    Stable False more (fun tokens => (level k tokens).reading) tokens := by
  match k, tokens with
  | 0, [] => exact .of_missing reading_level_nil
  | 0, token :: rest =>
      by_cases hUnary : token.kind.isUnary = true
      · exact ((level_stable 0 rest).map _).cons fun rest =>
          reading_level_unary hUnary
      by_cases hOpening : token.kind = .leftParen
      · refine .cons ((level_stable loosest rest).bind ?_ fun _ _ h => h)
          fun rest => reading_level_group hOpening
        intro _ inner rest' _
        exact (expect_stable ..).map _
      exact (atom_stable _).follows fun rest =>
        reading_level_atom hUnary hOpening
  | k + 1, tokens =>
      simp only [reading_level_succ]
      refine (level_stable k tokens).bind ?_ fun _ _ h => h
      intro mended left rest hReading
      have hLess := Outcome.length_lt_of_reading hReading
      exact chain_stable k left rest
termination_by (tokens.length, k)

theorem chain_stable (k : Nat) (left : Expr) (tokens : List Token) :
    Stable False more (chainReading k left) tokens := by
  match tokens with
  | [] => exact .of_open (chainReading_nil k left)
  | token :: rest =>
      by_cases h : token.kind.looseness? = some (k + 1)
      · refine .cons ((level_stable k rest).bind ?_ fun _ _ h => h)
          fun rest => chainReading_operator left h
        intro mended right rest' hReading
        have hLess := Outcome.length_lt_of_reading hReading
        exact chain_stable k _ rest'
      · exact .follows (.accept left) fun rest => chainReading_stop left h
termination_by (tokens.length, 0)

end

theorem expression_stable (tokens : List Token) :
    Stable False more (fun tokens => (expression tokens).reading) tokens :=
  level_stable loosest tokens

/-- Behind an expression a token must come, which then ends it. -/
theorem expression_stable_bind {α : Type} {kind : Kind} {fault : SyntaxFault}
    {next : Expr → Token → List Token → Reading α} (tokens : List Token)
    (hNext : ∀ value tokens, Stable atEnd more
      (fun tokens => (expect kind fault tokens).reading.bind (next value))
      tokens) :
    Stable atEnd more (fun tokens => (expression tokens).reading.bind
      fun value tokens => (expect kind fault tokens).reading.bind (next value))
      tokens := by
  refine (expression_stable tokens).bind (fun _ value rest _ =>
    hNext value rest) ?_
  intro value hFirm
  exact absurd hFirm (Reading.not_firm_of_missing rfl)

/-- A name alone is an expression of every level. -/
theorem reading_level_of_name {name : Token} (hName : name.kind = .identifier)
    (k : Nat) : (level k [name]).reading = .accept [] (.var name) [] := by
  induction k with
  | zero =>
      have hUnary : ¬name.kind.isUnary = true := by rw [hName]; decide
      have hOpening : name.kind ≠ .leftParen := by rw [hName]; decide
      rw [reading_level_atom hUnary hOpening, reading_atom_name hName]
  | succ k ih =>
      rw [reading_level_succ, ih, Reading.bind_accept, chainReading_nil]

end Expression

/-! ## Statements that hold no others -/

section Plain

variable {atEnd : Prop} {more : List Token}

theorem readRest_stable (tokens : List Token) :
    Stable atEnd more (fun tokens => (readRest tokens).reading) tokens := by
  simp only [readRest, reading_andThen, reading_map]
  refine (expect_stable ..).bind ?_ fun _ _ h => h
  intro _ _ tokens _
  refine (expect_stable ..).bind ?_ fun _ _ h => h
  intro _ name tokens _
  refine (expect_stable ..).bind ?_ fun _ _ h => h
  intro _ _ tokens _
  exact (expect_stable ..).map _

theorem writeRest_stable (tokens : List Token) :
    Stable atEnd more (fun tokens => (writeRest tokens).reading) tokens := by
  simp only [writeRest, reading_andThen, reading_map]
  refine (expect_stable ..).bind ?_ fun _ _ h => h
  intro _ _ tokens _
  apply expression_stable_bind
  intro value tokens
  refine (expect_stable ..).bind ?_ fun _ _ h => h
  intro _ _ tokens _
  exact (expect_stable ..).map _

theorem ifHead_stable (tokens : List Token) :
    Stable atEnd more (fun tokens => (ifHead tokens).reading) tokens := by
  simp only [ifHead, reading_andThen, reading_map]
  refine (expect_stable ..).bind ?_ fun _ _ h => h
  intro _ _ tokens _
  apply expression_stable_bind
  intro condition tokens
  refine (expect_stable ..).bind ?_ fun _ _ h => h
  intro _ _ tokens _
  exact (expect_stable ..).map _

theorem whileHead_stable (tokens : List Token) :
    Stable atEnd more (fun tokens => (whileHead tokens).reading) tokens := by
  simp only [whileHead, reading_andThen, reading_map]
  refine (expect_stable ..).bind ?_ fun _ _ h => h
  intro _ _ tokens _
  apply expression_stable_bind
  intro condition tokens
  exact (expect_stable ..).map _

theorem expressionStatement_stable (tokens : List Token) :
    Stable atEnd more (fun tokens => (expressionStatement tokens).reading)
      tokens := by
  simp only [expressionStatement, reading_andThen, reading_map]
  apply expression_stable_bind
  intro value tokens
  exact (expect_stable ..).map _

theorem assignmentRest_stable (name operator : Token) (tokens : List Token) :
    Stable atEnd more
      (fun tokens => (assignmentRest name operator tokens).reading) tokens := by
  simp only [assignmentRest, reading_andThen, reading_map]
  apply expression_stable_bind
  intro value tokens
  exact (expect_stable ..).map _

/-- A name alone may begin an assignment or an expression, and in both
cases more is wanted. -/
theorem reading_simple_of_name {name : Token}
    (hName : name.kind = .identifier) :
    (simple [name]).reading = .reject [] ⟨.expressionEnd, []⟩ [] := by
  have hNone : ∀ operator ∈ ([] : List Token).head?,
      ¬(name.kind = .identifier ∧ operator.kind.isAssignment = true) := nofun
  rw [reading_simple_expression hNone, expressionStatement, reading_andThen,
    expression, reading_level_of_name hName, Reading.bind_accept, reading_map]
  rfl

theorem simple_stable (tokens : List Token) :
    Stable atEnd more (fun tokens => (simple tokens).reading) tokens := by
  cases tokens with
  | nil => exact .of_missing reading_expressionStatement_nil
  | cons token rest =>
      by_cases hName : token.kind = .identifier
      · cases rest with
        | nil => exact .of_missing (reading_simple_of_name hName)
        | cons operator rest =>
            by_cases hOperator : operator.kind.isAssignment = true
            · have hSuffix : rest <:+ token :: operator :: rest :=
                List.suffix_append [token, operator] rest
              exact (assignmentRest_stable token operator rest).of_eq hSuffix
                (reading_simple_assign hName hOperator rest)
                (reading_simple_assign hName hOperator (rest ++ more))
            · have hExpression : ∀ rest,
                  (simple (token :: operator :: rest)).reading =
                    (expressionStatement (token :: operator :: rest)).reading := by
                intro rest
                refine reading_simple_expression ?_
                rintro _ ⟨⟩ ⟨_, h⟩
                exact hOperator h
              exact (expressionStatement_stable _).of_eq List.suffix_rfl
                (hExpression rest) (hExpression (rest ++ more))
      · exact (expressionStatement_stable _).follows fun rest =>
          reading_simple_expression fun _ _ h => hName h.1

theorem namesReading_stable (names tokens : List Token) :
    Stable False more (namesReading names) tokens := by
  match tokens with
  | [] => exact .of_open (namesReading_nil names)
  | token :: rest =>
      by_cases h : token.kind = .comma
      · refine .cons ((expect_stable ..).bind ?_ fun _ _ h => h)
          fun rest => namesReading_comma names h
        intro mended name rest' hReading
        have hLess := Outcome.length_lt_of_reading hReading
        exact namesReading_stable (name :: names) rest'
      · exact .follows (.accept _) fun rest => namesReading_stop names h
termination_by tokens.length

theorem declarationRest_stable (type : Token) (tokens : List Token) :
    Stable atEnd more (fun tokens => (declarationRest type tokens).reading)
      tokens := by
  simp only [reading_declarationRest]
  refine (expect_stable ..).bind ?_ fun _ _ h => h
  intro _ name tokens _
  refine (namesReading_stable [name] tokens).bind ?_ fun _ hFirm =>
    absurd hFirm (Reading.not_firm_of_missing rfl)
  intro _ names tokens _
  exact (expect_stable ..).map _

end Plain

/-! ## Recovery -/

section Recovery

variable {tokens : List Token}

theorem resume_append_of_ne_nil {previous : Token}
    (h : resume previous tokens ≠ []) (more : List Token) :
    resume previous (tokens ++ more) = resume previous tokens ++ more := by
  induction tokens generalizing previous with
  | nil => exact absurd rfl h
  | cons token rest ih =>
      rw [List.cons_append, resume, resume]
      rw [resume] at h
      split
      · rfl
      · next hGoOn =>
        rw [if_neg hGoOn] at h
        exact ih h

/-- A place at which reading goes on is the first such place also if tokens
are added. -/
theorem recover_append_of_ne_nil (h : recover tokens ≠ []) (more : List Token) :
    recover (tokens ++ more) = recover tokens ++ more := by
  cases tokens with
  | nil => exact absurd rfl h
  | cons token rest => exact resume_append_of_ne_nil h more

end Recovery

/-! ## Statements inside of statements

Behind a statement an `else` may change what the statement is, and nothing
else can.
-/

/-- No `else` stands in front. -/
def NoElse (tokens : List Token) : Prop :=
  ∀ token ∈ tokens.head?, token.kind ≠ .elseWord

theorem elseReading_of_noElse {tokens : List Token} (h : NoElse tokens)
    (condition : Expr) (thenPart : Stmt) :
    elseReading condition thenPart tokens =
      .accept [] (.ifThen condition thenPart) tokens := by
  cases tokens with
  | nil => rfl
  | cons token rest => exact if_neg (h token rfl)

section Statement

variable {more : List Token}

mutual

theorem statement_stable (tokens : List Token) :
    Stable (NoElse more) more (fun tokens => (statement tokens).reading)
      tokens := by
  match tokens with
  | [] => exact .of_missing reading_statement_nil
  | token :: rest =>
      by_cases hRead : token.kind = .read
      · exact (readRest_stable rest).cons fun rest =>
          reading_statement_read hRead
      by_cases hWrite : token.kind = .write
      · exact (writeRest_stable rest).cons fun rest =>
          reading_statement_write hWrite
      by_cases hIf : token.kind = .ifWord
      · refine .cons ((ifHead_stable rest).bind ?_ fun _ _ h => h) fun rest =>
          reading_statement_if hIf
        intro mended condition rest' hReading
        have hLess := Outcome.length_lt_of_reading hReading
        exact branchesReading_stable condition rest'
      by_cases hWhile : token.kind = .whileWord
      · refine .cons ((whileHead_stable rest).bind ?_ fun _ _ h => h)
          fun rest => reading_statement_while hWhile
        intro mended condition rest' hReading
        have hLess := Outcome.length_lt_of_reading hReading
        exact (statement_stable rest').map _
      by_cases hBlock : token.kind = .leftBrace
      · refine .cons ((members_stable rest).bind ?_ ?_) fun rest =>
          reading_statement_block hBlock
        · intro mended stmts rest' _
          exact (expect_stable ..).map _
        · intro stmts hFirm
          exact absurd hFirm (Reading.not_firm_of_missing rfl)
      exact (simple_stable _).follows fun rest =>
        reading_statement_simple hRead hWrite hIf hWhile hBlock
termination_by (tokens.length, 0)

theorem branchesReading_stable (condition : Expr) (tokens : List Token) :
    Stable (NoElse more) more (branchesReading condition) tokens := by
  refine (statement_stable tokens).bind ?_ fun _ _ h => h
  intro mended thenPart rest hReading
  have hLess := Attempt.length_lt_of_reading hReading
  match rest with
  | [] =>
      refine ⟨List.suffix_rfl, trivial, fun _ hAtEnd => ?_⟩
      exact elseReading_of_noElse (hAtEnd rfl) condition thenPart
  | token :: rest' =>
      by_cases h : token.kind = .elseWord
      · have hLess' : rest'.length < tokens.length := Nat.lt_of_succ_lt hLess
        exact ((statement_stable rest').map _).cons fun rest => if_pos h
      · exact .follows (.accept _) fun rest => if_neg h
termination_by (tokens.length, 1)

theorem declaration_stable (tokens : List Token) :
    Stable (NoElse more) more (fun tokens => (declaration tokens).reading)
      tokens := by
  match tokens with
  | [] => exact .of_missing reading_declaration_nil
  | token :: rest =>
      by_cases hType : token.kind = .long ∨ token.kind = .double
      · exact (declarationRest_stable token rest).cons fun rest =>
          reading_declaration_type hType
      · obtain ⟨hLong, hDouble⟩ := not_or.1 hType
        exact (statement_stable _).follows fun rest =>
          reading_declaration_statement hLong hDouble
termination_by (tokens.length, 1)

theorem members_stable (tokens : List Token) :
    Stable False more (fun tokens => (members true tokens).reading)
      tokens := by
  match tokens with
  | [] => exact .of_open (reading_members_nil true)
  | token :: rest =>
      by_cases hClosing : token.kind = .rightBrace
      · exact .follows (.accept _) fun rest => reading_members_closing hClosing
      · refine .follows ((declaration_stable (token :: rest)).mend ?_ ?_)
          fun rest => reading_members_cons fun _ => hClosing
        · intro mended stmt rest' hReading
          have hLess := Attempt.length_lt_of_reading hReading
          exact (members_stable rest').map _
        · intro mended failure rest' hReading
          have hRest := (declaration_stable (token :: rest)).suffix_of_reject
            hReading
          have hLess : (recover rest').length < (token :: rest).length :=
            length_recover_lt_of_le (Nat.succ_pos _) hRest.length_le
          -- where recovery runs to the end, the block would go on
          by_cases hOver : recover rest' = []
          · have hNone : (members true (recover rest')).reading =
                .accept [] [] [] := by rw [hOver, reading_members_nil]
            exact .of_open hNone
          · refine (members_stable (recover rest')).of_eq (recover_suffix rest')
              rfl ?_
            rw [recover_append_of_ne_nil hOver]
termination_by (tokens.length, 2)

end

end Statement

end ImpFront.Grammar
