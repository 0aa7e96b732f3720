import ImpFront.Proofs.Grammar.Soundness

/-!
# The rules look one token ahead

What a rule says up to a token depends on the tokens up to that one and on
none behind it. So two lists that agree as far as the token at which a
fault was found have the same fault there. This is proved for lists that
are cut in two: `Agree x y` relates the verdicts on `shared ++ x` and on
`shared ++ y`, where `x` and `y` begin with the same token or are both
empty. Either the verdicts are the same and leave `x` and `y`, or the
first one was only reached inside of `x`, and then nothing is said.

The predicate is closed under reading a token and under going on with
another rule, which is all that the rules of the grammar do. The recursive
ones are reached by induction on a bound for the number of tokens.

## Main results

* `LooksAhead.bind`, `LooksAhead.of_decides` — how rules are put together.
* `level_looksAhead`, `statement_looksAhead`, `members_looksAhead` — the
  rules of the grammar.
* `members_broken_of_shared` — a fault stays where it is when the tokens
  behind it are replaced.
-/

namespace ImpFront.Grammar

open Token (Kind)

/-! ## Agreement up to a token -/

/-- The tokens that a verdict leaves, or what it found instead of what was
wanted. -/
def Verdict.left {α : Type} : Verdict α → List Token
  | clean _ rest => rest
  | broken failure => failure.found

/-- Two verdicts on lists that end with `x` and `y` and are otherwise the
same: they agree unless the first one was reached inside of `x`. -/
inductive Agree {α : Type} (x y : List Token) : Verdict α → Verdict α → Prop
  | clean (value : α) (shared : List Token) :
      Agree x y (.clean value (shared ++ x)) (.clean value (shared ++ y))
  | broken (fault : SyntaxFault) (shared : List Token) :
      Agree x y (.broken ⟨fault, shared ++ x⟩) (.broken ⟨fault, shared ++ y⟩)
  | beyond {first second : Verdict α} (h : first.left.length < x.length) :
      Agree x y first second

/-- On fewer than `n` tokens, the rule looks no further ahead than the first
token that it leaves. -/
structure LooksAhead {α : Type} (n : Nat) (rule : List Token → Verdict α) :
    Prop where
  left_le : ∀ tokens : List Token, tokens.length < n →
    (rule tokens).left.length ≤ tokens.length
  agree : ∀ x y : List Token, x.head? = y.head? → ∀ shared : List Token,
    (shared ++ x).length < n → Agree x y (rule (shared ++ x)) (rule (shared ++ y))

namespace LooksAhead

variable {α β : Type} {m n : Nat} {rule : List Token → Verdict α}

theorem mono (h : LooksAhead n rule) (hLe : m ≤ n) : LooksAhead m rule := by
  constructor
  · intro tokens hTokens
    have hLess : tokens.length < n := by omega
    exact h.left_le tokens hLess
  · intro x y hHead shared hTokens
    have hLess : (shared ++ x).length < n := by omega
    exact h.agree x y hHead shared hLess

/-- A rule that reads nothing and accepts. -/
theorem clean (value : α) : LooksAhead n (Verdict.clean value) where
  left_le _ _ := Nat.le_refl _
  agree _ _ _ shared _ := .clean value shared

/-- A rule that reads nothing and rejects. -/
theorem broken (fault : SyntaxFault) :
    LooksAhead n fun tokens => (Verdict.broken ⟨fault, tokens⟩ : Verdict α) where
  left_le _ _ := Nat.le_refl _
  agree _ _ _ shared _ := .broken fault shared

/-- A rule behind a rule that leaves fewer than `m` tokens. -/
theorem bind_of_lt {next : α → List Token → Verdict β}
    (hRule : LooksAhead n rule)
    (hLess : ∀ tokens value rest, tokens.length < n →
      rule tokens = .clean value rest → rest.length < m)
    (hNext : ∀ value, LooksAhead m (next value)) :
    LooksAhead n fun tokens => (rule tokens).bind next := by
  have hLeft : ∀ tokens, tokens.length < n →
      ((rule tokens).bind next).left.length ≤ (rule tokens).left.length := by
    intro tokens hTokens
    cases hVerdict : rule tokens with
    | clean value rest =>
        exact (hNext value).left_le rest (hLess tokens value rest hTokens hVerdict)
    | broken failure => exact Nat.le_refl _
  constructor
  · intro tokens hTokens
    have hFirst := hRule.left_le tokens hTokens
    have hBoth := hLeft tokens hTokens
    omega
  · intro x y hHead shared hTokens
    have hAgree := hRule.agree x y hHead shared hTokens
    have hBound := hLeft (shared ++ x) hTokens
    generalize hFirst : rule (shared ++ x) = first at hAgree hBound ⊢
    generalize rule (shared ++ y) = second at hAgree ⊢
    cases hAgree with
    | clean value shared' =>
        exact (hNext value).agree x y hHead shared'
          (hLess _ value _ hTokens hFirst)
    | broken fault shared' => exact .broken fault shared'
    | beyond h =>
        -- the first rule already ended inside of `x`, and so do both
        have hBeyond : (first.bind next).left.length < x.length := by omega
        exact .beyond hBeyond

/-- A rule behind a rule. -/
theorem bind {next : α → List Token → Verdict β} (hRule : LooksAhead n rule)
    (hNext : ∀ value, LooksAhead n (next value)) :
    LooksAhead n fun tokens => (rule tokens).bind next := by
  have hLess : ∀ tokens value rest, tokens.length < n →
      rule tokens = .clean value rest → rest.length < n := by
    intro tokens value rest hTokens hVerdict
    have hLe : (rule tokens).left.length ≤ tokens.length :=
      hRule.left_le tokens hTokens
    rw [hVerdict] at hLe
    have hRest : rest.length ≤ tokens.length := hLe
    omega
  exact hRule.bind_of_lt hLess hNext

theorem map (f : α → β) (hRule : LooksAhead n rule) :
    LooksAhead n fun tokens => (rule tokens).map f :=
  hRule.bind fun value => clean (f value)

/-- Behind a verdict, a rule leaves no more than the verdict did. -/
theorem left_bind_le {next : α → List Token → Verdict β}
    (hNext : ∀ value n, LooksAhead n (next value)) (verdict : Verdict α) :
    (verdict.bind next).left.length ≤ verdict.left.length := by
  cases verdict with
  | clean value rest =>
      exact (hNext value (rest.length + 1)).left_le rest (Nat.lt_succ_self _)
  | broken failure => exact Nat.le_refl _

end LooksAhead

/-- With the token given in front, a rule either reads it and goes on, or
does what another rule does. -/
inductive Decides {α : Type} (n : Nat) (rule : List Token → Verdict α)
    (token : Token) : Prop
  | reads {next : List Token → Verdict α} (hNext : LooksAhead n next)
      (h : ∀ rest, rule (token :: rest) = next rest)
  | follows {other : List Token → Verdict α}
      (hOther : LooksAhead (n + 1) other)
      (h : ∀ rest, rule (token :: rest) = other (token :: rest))

/-- A rule that decides by the token in front looks one token ahead. -/
theorem LooksAhead.of_decides {α : Type} {n : Nat}
    {rule : List Token → Verdict α} (hNil : (rule []).left = [])
    (hCons : ∀ token, Decides n rule token) : LooksAhead (n + 1) rule := by
  constructor
  · intro tokens hTokens
    match tokens with
    | [] => exact Nat.le_of_eq (congrArg List.length hNil)
    | token :: rest =>
        rw [List.length_cons] at hTokens ⊢
        have hRest : rest.length < n := by omega
        match hCons token with
        | .reads hNext h =>
            rw [h]
            have hLeft := hNext.left_le rest hRest
            omega
        | .follows hOther h =>
            rw [h]
            exact hOther.left_le _ hTokens
  · intro x y hHead shared hTokens
    match shared, x, y, hHead with
    | [], [], [], _ =>
        show Agree [] [] (rule []) (rule [])
        match rule [] with
        | .clean value rest =>
            have h := Agree.clean (x := []) (y := []) value rest
            rwa [List.append_nil] at h
        | .broken ⟨fault, found⟩ =>
            have h := Agree.broken (α := α) (x := []) (y := []) fault found
            rwa [List.append_nil] at h
    | [], token :: x, token' :: y, hHead =>
        obtain rfl : token = token' := Option.some.inj hHead
        match hCons token with
        | .reads hNext h =>
            -- the token in front is read, and it is the first one of `x`
            have hRest : x.length < n := Nat.lt_of_succ_lt_succ hTokens
            have hLeft : (rule (token :: x)).left.length ≤ x.length := by
              rw [h]
              exact hNext.left_le x hRest
            exact .beyond (Nat.lt_succ_of_le hLeft)
        | .follows hOther h =>
            show Agree _ _ (rule (token :: x)) (rule (token :: y))
            rw [h, h]
            exact hOther.agree (token :: x) (token :: y) rfl [] hTokens
    | token :: shared, x, y, hHead =>
        show Agree x y (rule (token :: (shared ++ x)))
          (rule (token :: (shared ++ y)))
        match hCons token with
        | .reads hNext h =>
            rw [h, h]
            exact hNext.agree x y hHead shared (Nat.lt_of_succ_lt_succ hTokens)
        | .follows hOther h =>
            rw [h, h]
            exact hOther.agree x y hHead (token :: shared) hTokens

/-! ## Tokens and expressions -/

section Expression

variable {n : Nat}

theorem expect_looksAhead (kind : Kind) (fault : SyntaxFault) :
    LooksAhead n fun tokens => (expect kind fault tokens).verdict := by
  suffices h : LooksAhead (n + 1) fun tokens =>
      (expect kind fault tokens).verdict from h.mono (by omega)
  refine .of_decides rfl ?_
  intro token
  by_cases h : token.kind = kind
  · exact .reads (.clean token) fun rest => verdict_expect_of_eq h rest
  · exact .follows (.broken fault) fun rest => verdict_expect_of_ne h rest

theorem atom_looksAhead : LooksAhead n fun tokens => (atom tokens).verdict := by
  suffices h : LooksAhead (n + 1) fun tokens => (atom tokens).verdict from
    h.mono (by omega)
  refine .of_decides rfl ?_
  intro token
  by_cases hName : token.kind = .identifier
  · exact .reads (.clean _) fun rest => verdict_atom_name hName
  · match h : constant? token with
    | some (.ok value) =>
        exact .reads (.clean _) fun rest => verdict_atom_constant hName h
    | some (.error fault) =>
        exact .follows (.broken fault) fun rest =>
          verdict_atom_unreadable hName h
    | none =>
        exact .follows (.broken .operand) fun rest => verdict_atom_other hName h

theorem chainVerdict_looksAhead_succ {k : Nat}
    (hLevel : LooksAhead n fun tokens => (level k tokens).verdict)
    (hChain : ∀ left, LooksAhead n (chainVerdict k left)) (left : Expr) :
    LooksAhead (n + 1) (chainVerdict k left) := by
  refine .of_decides (by rw [chainVerdict_nil]; rfl) ?_
  intro token
  by_cases h : token.kind.looseness? = some (k + 1)
  · exact .reads (hLevel.bind fun right => hChain _) fun rest =>
      chainVerdict_operator left h
  · exact .follows (.clean left) fun rest => chainVerdict_stop left h

theorem level_looksAhead_succ
    (hLevel : ∀ k, LooksAhead n fun tokens => (level k tokens).verdict)
    (hChain : ∀ k left, LooksAhead (n + 1) (chainVerdict k left)) (k : Nat) :
    LooksAhead (n + 1) fun tokens => (level k tokens).verdict := by
  induction k with
  | zero =>
      refine .of_decides (by rw [verdict_level_nil]; rfl) ?_
      intro token
      by_cases hUnary : token.kind.isUnary = true
      · exact .reads ((hLevel 0).map _) fun rest => verdict_level_unary hUnary
      by_cases hOpening : token.kind = .leftParen
      · refine .reads ((hLevel loosest).bind fun inner => ?_) fun rest =>
          verdict_level_group hOpening
        exact (expect_looksAhead ..).map _
      exact .follows atom_looksAhead fun rest =>
        verdict_level_atom hUnary hOpening
  | succ k ih =>
      simp only [verdict_level_succ]
      exact ih.bind (hChain k)

theorem level_chain_looksAhead :
    (∀ k, LooksAhead n fun tokens => (level k tokens).verdict) ∧
      ∀ k left, LooksAhead n (chainVerdict k left) := by
  induction n with
  | zero => exact ⟨fun _ => ⟨nofun, nofun⟩, fun _ _ => ⟨nofun, nofun⟩⟩
  | succ n ih =>
      obtain ⟨hLevel, hChain⟩ := ih
      have hChainSucc : ∀ k left, LooksAhead (n + 1) (chainVerdict k left) :=
        fun k => chainVerdict_looksAhead_succ (hLevel k) (hChain k)
      exact ⟨level_looksAhead_succ hLevel hChainSucc, hChainSucc⟩

theorem level_looksAhead (k : Nat) :
    LooksAhead n fun tokens => (level k tokens).verdict :=
  level_chain_looksAhead.1 k

theorem expression_looksAhead :
    LooksAhead n fun tokens => (expression tokens).verdict :=
  level_looksAhead loosest

/-- A name in front is read by every level. -/
theorem left_level_of_name {name : Token} (hName : name.kind = .identifier)
    (k : Nat) (rest : List Token) :
    (level k (name :: rest)).verdict.left.length ≤ rest.length := by
  induction k with
  | zero =>
      have hUnary : ¬name.kind.isUnary = true := by rw [hName]; decide
      have hOpening : name.kind ≠ .leftParen := by rw [hName]; decide
      rw [verdict_level_atom hUnary hOpening, verdict_atom_name hName]
      exact Nat.le_refl _
  | succ k ih =>
      rw [verdict_level_succ]
      have hChain : ∀ left n, LooksAhead n (chainVerdict k left) :=
        fun left n => level_chain_looksAhead.2 k left
      exact Nat.le_trans (LooksAhead.left_bind_le hChain _) ih

end Expression

/-! ## Statements -/

section Statement

variable {n : Nat}

theorem readRest_looksAhead :
    LooksAhead n fun tokens => (readRest tokens).verdict := by
  simp only [readRest, verdict_andThen, verdict_map]
  apply (expect_looksAhead ..).bind
  intro _
  apply (expect_looksAhead ..).bind
  intro name
  apply (expect_looksAhead ..).bind
  intro _
  exact (expect_looksAhead ..).map _

theorem writeRest_looksAhead :
    LooksAhead n fun tokens => (writeRest tokens).verdict := by
  simp only [writeRest, verdict_andThen, verdict_map]
  apply (expect_looksAhead ..).bind
  intro _
  apply expression_looksAhead.bind
  intro value
  apply (expect_looksAhead ..).bind
  intro _
  exact (expect_looksAhead ..).map _

theorem ifHead_looksAhead :
    LooksAhead n fun tokens => (ifHead tokens).verdict := by
  simp only [ifHead, verdict_andThen, verdict_map]
  apply (expect_looksAhead ..).bind
  intro _
  apply expression_looksAhead.bind
  intro condition
  apply (expect_looksAhead ..).bind
  intro _
  exact (expect_looksAhead ..).map _

theorem whileHead_looksAhead :
    LooksAhead n fun tokens => (whileHead tokens).verdict := by
  simp only [whileHead, verdict_andThen, verdict_map]
  apply (expect_looksAhead ..).bind
  intro _
  apply expression_looksAhead.bind
  intro condition
  exact (expect_looksAhead ..).map _

theorem expressionStatement_looksAhead :
    LooksAhead n fun tokens => (expressionStatement tokens).verdict := by
  simp only [expressionStatement, verdict_andThen, verdict_map]
  exact expression_looksAhead.bind fun value => (expect_looksAhead ..).map _

theorem assignmentRest_looksAhead (name operator : Token) :
    LooksAhead n fun tokens => (assignmentRest name operator tokens).verdict := by
  simp only [assignmentRest, verdict_andThen, verdict_map]
  exact expression_looksAhead.bind fun value => (expect_looksAhead ..).map _

theorem namesVerdict_looksAhead (names : List Token) :
    LooksAhead n (namesVerdict names) := by
  induction n generalizing names with
  | zero => exact ⟨nofun, nofun⟩
  | succ n ih =>
      refine .of_decides (by rw [namesVerdict_nil]; rfl) ?_
      intro token
      by_cases h : token.kind = .comma
      · exact .reads ((expect_looksAhead ..).bind fun name => ih _) fun rest =>
          namesVerdict_comma names h
      · exact .follows (.clean _) fun rest => namesVerdict_stop names h

theorem declarationRest_looksAhead (type : Token) :
    LooksAhead n fun tokens => (declarationRest type tokens).verdict := by
  simp only [verdict_declarationRest]
  apply (expect_looksAhead ..).bind
  intro name
  apply (namesVerdict_looksAhead _).bind
  intro names
  exact (expect_looksAhead ..).map _

/-- A name in front is read by an expression statement too. -/
theorem left_expressionStatement_of_name {name : Token}
    (hName : name.kind = .identifier) (rest : List Token) :
    (expressionStatement (name :: rest)).verdict.left.length ≤ rest.length := by
  simp only [expressionStatement, verdict_andThen, verdict_map]
  have hEnd : ∀ (value : Expr) n, LooksAhead n fun tokens =>
      (expect .semicolon .expressionEnd tokens).verdict.map fun _ =>
        Stmt.expression value :=
    fun value n => (expect_looksAhead ..).map _
  exact Nat.le_trans (LooksAhead.left_bind_le hEnd _)
    (left_level_of_name hName loosest rest)

/-- Behind a name, the next token tells an assignment from an expression;
and in both cases the name is read. -/
theorem simple_of_name_looksAhead {name : Token}
    (hName : name.kind = .identifier) :
    LooksAhead n fun rest => (simple (name :: rest)).verdict := by
  suffices h : LooksAhead (n + 1) fun rest =>
      (simple (name :: rest)).verdict from h.mono (by omega)
  have hExpression : LooksAhead (n + 1) fun rest =>
      (expressionStatement (name :: rest)).verdict := by
    constructor
    · intro rest _
      exact left_expressionStatement_of_name hName rest
    · intro x y hHead shared hShared
      exact expressionStatement_looksAhead.agree x y hHead (name :: shared)
        (Nat.succ_lt_succ hShared)
  refine .of_decides ?_ ?_
  · have hLeft : (simple [name]).verdict.left.length ≤ 0 :=
      left_expressionStatement_of_name hName []
    exact List.eq_nil_of_length_eq_zero (by omega)
  · intro operator
    by_cases h : operator.kind.isAssignment = true
    · refine .reads (assignmentRest_looksAhead name operator) fun rest => ?_
      rw [simple, if_pos (by rw [hName, h]; rfl), verdict_weaken]
    · refine .follows hExpression fun rest => ?_
      rw [simple, if_neg (by rw [hName]; exact h)]

theorem simple_looksAhead :
    LooksAhead n fun tokens => (simple tokens).verdict := by
  suffices h : LooksAhead (n + 1) fun tokens => (simple tokens).verdict from
    h.mono (by omega)
  refine .of_decides ?_ ?_
  · show (expressionStatement []).verdict.left = []
    rw [verdict_expressionStatement_nil]
    rfl
  · intro token
    by_cases h : token.kind = .identifier
    · exact .reads (simple_of_name_looksAhead h) fun rest => rfl
    · refine .follows expressionStatement_looksAhead fun rest => ?_
      cases rest with
      | nil => rfl
      | cons operator rest =>
          rw [simple, if_neg]
          simp [h]

/-! ## Statements inside of statements

With the statements on fewer than `n` tokens come the branches on as many,
and then the statements on `n` tokens.
-/

theorem branchesVerdict_looksAhead
    (hStmt : LooksAhead n fun tokens => (statement tokens).verdict)
    (condition : Expr) : LooksAhead n (branchesVerdict condition) := by
  apply hStmt.bind
  intro thenPart
  refine LooksAhead.mono (.of_decides ?_ fun token => ?_) (Nat.le_succ n)
  · rfl
  · by_cases h : token.kind = .elseWord
    · exact .reads (hStmt.map _) fun rest => if_pos h
    · exact .follows (.clean _) fun rest => if_neg h

theorem statement_looksAhead_succ
    (hStmt : LooksAhead n fun tokens => (statement tokens).verdict)
    (hMembers : ∀ inBlock,
      LooksAhead n fun tokens => (members inBlock tokens).verdict) :
    LooksAhead (n + 1) fun tokens => (statement tokens).verdict := by
  refine .of_decides (by rw [verdict_statement_nil]; rfl) ?_
  intro token
  by_cases hRead : token.kind = .read
  · exact .reads readRest_looksAhead fun rest => verdict_statement_read hRead
  by_cases hWrite : token.kind = .write
  · exact .reads writeRest_looksAhead fun rest =>
      verdict_statement_write hWrite
  by_cases hIf : token.kind = .ifWord
  · exact .reads (ifHead_looksAhead.bind (branchesVerdict_looksAhead hStmt))
      fun rest => verdict_statement_if hIf
  by_cases hWhile : token.kind = .whileWord
  · exact .reads (whileHead_looksAhead.bind fun condition => hStmt.map _)
      fun rest => verdict_statement_while hWhile
  by_cases hBlock : token.kind = .leftBrace
  · refine .reads ((hMembers true).bind fun stmts => ?_) fun rest =>
      verdict_statement_block hBlock
    exact (expect_looksAhead ..).map _
  exact .follows simple_looksAhead fun rest =>
    verdict_statement_simple hRead hWrite hIf hWhile hBlock

theorem declaration_looksAhead_of_statement
    (hStmt : LooksAhead (n + 1) fun tokens => (statement tokens).verdict) :
    LooksAhead (n + 1) fun tokens => (declaration tokens).verdict := by
  refine .of_decides (by rw [verdict_declaration_nil]; rfl) ?_
  intro token
  by_cases hLong : token.kind = .long
  · exact .reads (declarationRest_looksAhead token) fun rest =>
      verdict_declaration_type (.inl hLong)
  by_cases hDouble : token.kind = .double
  · exact .reads (declarationRest_looksAhead token) fun rest =>
      verdict_declaration_type (.inr hDouble)
  exact .follows hStmt fun rest => verdict_declaration_statement hLong hDouble

/-- A statement rule that accepts has read something. -/
theorem length_lt_of_verdict {bound : Nat} {attempt : Attempt bound}
    {stmt : Stmt} {rest : List Token} (h : attempt.verdict = .clean stmt rest) :
    rest.length < bound := by
  match attempt, h with
  | ⟨⟨[]⟩, .accept _ _ hLess⟩, h =>
      cases h
      exact hLess

theorem members_looksAhead_succ
    (hDecl : LooksAhead (n + 1) fun tokens => (declaration tokens).verdict)
    (hMembers : ∀ inBlock,
      LooksAhead n fun tokens => (members inBlock tokens).verdict)
    (inBlock : Bool) :
    LooksAhead (n + 1) fun tokens => (members inBlock tokens).verdict := by
  have hCons : LooksAhead (n + 1) fun tokens =>
      (declaration tokens).verdict.bind fun stmt rest =>
        (members inBlock rest).verdict.map (stmt :: ·) := by
    refine hDecl.bind_of_lt ?_ fun stmt => (hMembers inBlock).map (stmt :: ·)
    intro tokens stmt rest hTokens hVerdict
    have hRead : rest.length < tokens.length := length_lt_of_verdict hVerdict
    omega
  refine .of_decides (by rw [verdict_members_nil]; rfl) ?_
  intro token
  by_cases hOpen : inBlock = true → token.kind ≠ .rightBrace
  · exact .follows hCons fun rest => verdict_members_cons hOpen
  · obtain ⟨rfl, hClosing⟩ := Classical.not_imp.1 hOpen
    exact .follows (.clean []) fun rest =>
      verdict_members_closing (Classical.not_not.1 hClosing)

theorem statement_members_looksAhead :
    (LooksAhead n fun tokens => (statement tokens).verdict) ∧
      ∀ inBlock, LooksAhead n fun tokens => (members inBlock tokens).verdict := by
  induction n with
  | zero => exact ⟨⟨nofun, nofun⟩, fun _ => ⟨nofun, nofun⟩⟩
  | succ n ih =>
      obtain ⟨hStmt, hMembers⟩ := ih
      have hStmtSucc := statement_looksAhead_succ hStmt hMembers
      have hDeclSucc := declaration_looksAhead_of_statement hStmtSucc
      exact ⟨hStmtSucc, members_looksAhead_succ hDeclSucc hMembers⟩

theorem members_looksAhead (inBlock : Bool) :
    LooksAhead n fun tokens => (members inBlock tokens).verdict :=
  statement_members_looksAhead.2 inBlock

end Statement

/-- A fault found at a token stays where it is, whatever the tokens behind
it are replaced by. -/
theorem members_broken_of_shared {inBlock : Bool} {fault : SyntaxFault}
    {shared : List Token} {token : Token} {x : List Token}
    (h : (members inBlock (shared ++ token :: x)).verdict =
      .broken ⟨fault, token :: x⟩) (y : List Token) :
    (members inBlock (shared ++ token :: y)).verdict =
      .broken ⟨fault, token :: y⟩ := by
  have hAgree := (members_looksAhead inBlock).agree (token :: x) (token :: y)
    rfl shared (Nat.lt_succ_self _)
  rw [h] at hAgree
  generalize (members inBlock (shared ++ token :: y)).verdict = second at hAgree ⊢
  generalize hFirst : (Verdict.broken ⟨fault, token :: x⟩ : Verdict (List Stmt)) =
    first at hAgree
  cases hAgree with
  | clean value shared' => cases hFirst
  | broken fault' shared' =>
      injection hFirst with hFailure
      injection hFailure with hFault hFound
      obtain rfl : shared' = [] := List.self_eq_append_left.1 hFound
      rw [hFault]
      rfl
  | beyond hLess =>
      rw [← hFirst] at hLess
      exact absurd hLess (Nat.lt_irrefl _)

end ImpFront.Grammar
