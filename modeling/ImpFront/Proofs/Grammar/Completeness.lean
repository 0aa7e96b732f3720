import ImpFront.Proofs.Grammar.Soundness

/-!
# Every phrase is read

The rules decide with one token of look-ahead, and never go back. This is
enough: whatever the grammar derives is read to its end, with the very
tree of the derivation, provided that the phrase ends where it is said to
end. An expression ends in front of a token that is no operator of its
level or a tighter one (`Stops`). A statement ends anywhere, except that
an `else` may not follow one that an `else` could still belong to
(`Closes`); for that reason every `else` inside must belong to the nearest
`if`.

## Main results

* `verdict_level_of_isExpr` — expressions.
* `verdict_statement_of_isStmt`, `verdict_members_of_isProgram` —
  statements, and programs inside and outside of blocks.
-/

namespace ImpFront.Grammar

open Token (Kind)

/-! ## Expressions -/

/-- No operator of level `k` or below stands in front. -/
def Stops (k : Nat) (rest : List Token) : Prop :=
  ∀ token ∈ rest.head?, ∀ l, token.kind.looseness? = some l → k < l

theorem stops_of_eq_none {token : Token} (h : token.kind.looseness? = none)
    (k : Nat) (rest : List Token) : Stops k (token :: rest) := by
  intro token' hMem l hLevel
  cases hMem
  rw [h] at hLevel
  cases hLevel

theorem stops_of_eq_some {token : Token} {k : Nat}
    (h : token.kind.looseness? = some (k + 1)) (rest : List Token) :
    Stops k (token :: rest) := by
  intro token' hMem l hLevel
  cases hMem
  rw [h] at hLevel
  cases hLevel
  exact Nat.lt_succ_self k

theorem Stops.mono {j k : Nat} {rest : List Token} (h : Stops k rest)
    (hLe : j ≤ k) : Stops j rest := by
  intro token hMem l hLevel
  exact Nat.lt_of_le_of_lt hLe (h token hMem l hLevel)

theorem chainVerdict_of_stops {k : Nat} {rest : List Token} (left : Expr)
    (h : Stops (k + 1) rest) : chainVerdict k left rest = .clean left rest := by
  match rest with
  | [] => exact chainVerdict_nil k left
  | token :: rest' =>
      refine chainVerdict_stop left ?_
      intro hLevel
      exact Nat.lt_irrefl _ (h token rfl (k + 1) hLevel)

/-- What is still to be done behind an expression of level `k`: above level
zero, operators of the level itself may follow. -/
def afterExpr : Nat → Expr → List Token → Verdict Expr
  | 0, expr, rest => .clean expr rest
  | k + 1, expr, rest => chainVerdict k expr rest

theorem afterExpr_of_stops {k : Nat} {rest : List Token} (expr : Expr)
    (h : Stops k rest) : afterExpr k expr rest = .clean expr rest := by
  cases k with
  | zero => rfl
  | succ k => exact chainVerdict_of_stops expr h

/-- Expressions of a level are also left operands of that level, so only
operators that bind tighter must not follow. -/
theorem verdict_level_eq_afterExpr {k : Nat} {tokens : List Token}
    {expr : Expr} (h : IsExpr k tokens expr) :
    ∀ (rest : List Token) (j : Nat), k ≤ j + 1 → Stops j rest →
      (level k (tokens ++ rest)).verdict = afterExpr k expr rest := by
  induction h with
  | @constant token value hValue =>
      intro rest j _ _
      have hKinds : ¬token.kind.isUnary = true ∧ token.kind ≠ .leftParen ∧
          token.kind ≠ .identifier := by
        rcases hValue.kind with h | h | h | h <;> rw [h] <;> decide
      obtain ⟨hUnary, hOpening, hName⟩ := hKinds
      rw [List.singleton_append, verdict_level_atom hUnary hOpening,
        verdict_atom_constant hName (constant?_of_denotes hValue)]
      rfl
  | @name token hName =>
      intro rest j _ _
      have hUnary : ¬token.kind.isUnary = true := by rw [hName]; decide
      have hOpening : token.kind ≠ .leftParen := by rw [hName]; decide
      rw [List.singleton_append, verdict_level_atom hUnary hOpening,
        verdict_atom_name hName]
      rfl
  | @group opening closing tokens inner hOpening _ hClosing ih =>
      intro rest j _ _
      have hStop : Stops loosest (closing :: rest) :=
        stops_of_eq_none (by rw [hClosing]; rfl) _ rest
      have hInner := ih (closing :: rest) loosest (Nat.le_succ _) hStop
      rw [afterExpr_of_stops inner hStop] at hInner
      rw [List.cons_append, List.append_assoc, List.singleton_append,
        verdict_level_group hOpening, hInner, Verdict.bind_clean,
        verdict_expect_of_eq hClosing]
      rfl
  | unary hOperator _ ih =>
      intro rest j hLe hStop
      rw [List.cons_append, verdict_level_unary hOperator, ih rest j hLe hStop]
      rfl
  | @tighter k tokens expr _ ih =>
      intro rest j hLe hStop
      have hK : k ≤ j := by omega
      rw [verdict_level_succ, ih rest j (Nat.le_succ_of_le hK) hStop,
        afterExpr_of_stops expr (hStop.mono hK)]
      rfl
  | @binary k operator first second left right _ hOperator _ ihLeft ihRight =>
      intro rest j hLe hStop
      have hK : k ≤ j := by omega
      have hLeft := ihLeft (operator :: (second ++ rest)) k (Nat.le_refl _)
        (stops_of_eq_some hOperator _)
      rw [List.append_assoc, List.cons_append, hLeft]
      show chainVerdict k left (operator :: (second ++ rest)) = _
      rw [chainVerdict_operator left hOperator,
        ihRight rest j (Nat.le_succ_of_le hK) hStop,
        afterExpr_of_stops right (hStop.mono hK)]
      rfl

theorem verdict_level_of_isExpr {k : Nat} {tokens rest : List Token}
    {expr : Expr} (h : IsExpr k tokens expr) (hStop : Stops k rest) :
    (level k (tokens ++ rest)).verdict = .clean expr rest := by
  rw [verdict_level_eq_afterExpr h rest k (Nat.le_succ k) hStop,
    afterExpr_of_stops expr hStop]

/-- In every rule a token that is no operator follows the expression. -/
theorem verdict_expression_of_isExpr {tokens : List Token} {expr : Expr}
    {token : Token} (h : IsExpr loosest tokens expr)
    (hToken : token.kind.looseness? = none) (rest : List Token) :
    (expression (tokens ++ token :: rest)).verdict =
      .clean expr (token :: rest) :=
  verdict_level_of_isExpr h (stops_of_eq_none hToken loosest rest)

/-! ## Statements -/

/-- No `else` follows a statement that it could belong to. -/
def Closes (stmt : Stmt) (rest : List Token) : Prop :=
  stmt.endsOpen = true → ∀ token ∈ rest.head?, token.kind ≠ .elseWord

theorem closes_of_ne {token : Token} (h : token.kind ≠ .elseWord)
    (stmt : Stmt) (rest : List Token) : Closes stmt (token :: rest) := by
  intro _ token' hMem
  cases hMem
  exact h

theorem closes_of_endsOpen_eq_false {stmt : Stmt} (h : stmt.endsOpen = false)
    (rest : List Token) : Closes stmt rest := by
  intro hOpen
  rw [h] at hOpen
  cases hOpen

theorem verdict_readRest {opening name closing semicolon : Token}
    (hOpening : opening.kind = .leftParen) (hName : name.kind = .identifier)
    (hClosing : closing.kind = .rightParen)
    (hEnd : semicolon.kind = .semicolon) (rest : List Token) :
    (readRest (opening :: name :: closing :: semicolon :: rest)).verdict =
      .clean (.read name) rest := by
  simp only [readRest, verdict_andThen, verdict_map, Verdict.bind_clean,
    verdict_expect_of_eq hOpening, verdict_expect_of_eq hName,
    verdict_expect_of_eq hClosing, verdict_expect_of_eq hEnd,
    Verdict.map_clean]

theorem verdict_writeRest {opening closing semicolon : Token}
    {tokens : List Token} {value : Expr}
    (hOpening : opening.kind = .leftParen)
    (hValue : IsExpr loosest tokens value)
    (hClosing : closing.kind = .rightParen)
    (hEnd : semicolon.kind = .semicolon) (rest : List Token) :
    (writeRest (opening :: (tokens ++ closing :: semicolon :: rest))).verdict =
      .clean (.write value) rest := by
  have hStop : closing.kind.looseness? = none := by rw [hClosing]; rfl
  simp only [writeRest, verdict_andThen, verdict_map, Verdict.bind_clean,
    verdict_expect_of_eq hOpening, verdict_expression_of_isExpr hValue hStop,
    verdict_expect_of_eq hClosing, verdict_expect_of_eq hEnd,
    Verdict.map_clean]

theorem verdict_whileHead {opening closing : Token} {tokens : List Token}
    {condition : Expr} (hOpening : opening.kind = .leftParen)
    (hCondition : IsExpr loosest tokens condition)
    (hClosing : closing.kind = .rightParen) (rest : List Token) :
    (whileHead (opening :: (tokens ++ closing :: rest))).verdict =
      .clean condition rest := by
  have hStop : closing.kind.looseness? = none := by rw [hClosing]; rfl
  simp only [whileHead, verdict_andThen, verdict_map, Verdict.bind_clean,
    verdict_expect_of_eq hOpening,
    verdict_expression_of_isExpr hCondition hStop,
    verdict_expect_of_eq hClosing, Verdict.map_clean]

theorem verdict_ifHead {opening closing thenWord : Token}
    {tokens : List Token} {condition : Expr}
    (hOpening : opening.kind = .leftParen)
    (hCondition : IsExpr loosest tokens condition)
    (hClosing : closing.kind = .rightParen)
    (hThen : thenWord.kind = .thenWord) (rest : List Token) :
    (ifHead (opening :: (tokens ++ closing :: thenWord :: rest))).verdict =
      .clean condition rest := by
  have hStop : closing.kind.looseness? = none := by rw [hClosing]; rfl
  simp only [ifHead, verdict_andThen, verdict_map, Verdict.bind_clean,
    verdict_expect_of_eq hOpening,
    verdict_expression_of_isExpr hCondition hStop,
    verdict_expect_of_eq hClosing, verdict_expect_of_eq hThen,
    Verdict.map_clean]

theorem verdict_simple_assign {name operator semicolon : Token}
    {tokens : List Token} {value : Expr} (hName : name.kind = .identifier)
    (hOperator : operator.kind.isAssignment = true)
    (hValue : IsExpr loosest tokens value)
    (hEnd : semicolon.kind = .semicolon) (rest : List Token) :
    (simple (name :: operator :: (tokens ++ semicolon :: rest))).verdict =
      .clean (.assign name operator value) rest := by
  have hBoth : (decide (name.kind = .identifier) &&
      operator.kind.isAssignment) = true := by
    rw [hOperator, decide_eq_true hName]
    rfl
  have hStop : semicolon.kind.looseness? = none := by rw [hEnd]; rfl
  rw [simple, if_pos hBoth]
  simp only [verdict_weaken, assignmentRest, verdict_andThen, verdict_map,
    Verdict.bind_clean, verdict_expression_of_isExpr hValue hStop,
    verdict_expect_of_eq hEnd, Verdict.map_clean]

/-- Behind a name in front of an expression stands no assignment
operator. -/
theorem simple_eq_expressionStatement {tokens : List Token} {value : Expr}
    {semicolon : Token} (hValue : IsExpr loosest tokens value)
    (hEnd : semicolon.kind = .semicolon) (rest : List Token) :
    (simple (tokens ++ semicolon :: rest)).verdict =
      (expressionStatement (tokens ++ semicolon :: rest)).verdict := by
  have hSecond : ∀ name operator rest',
      tokens ++ semicolon :: rest = name :: operator :: rest' →
      ¬(decide (name.kind = .identifier) &&
        operator.kind.isAssignment) = true := by
    intro name operator rest' hTokens hBoth
    obtain ⟨hName, hOperator⟩ : name.kind = .identifier ∧
        operator.kind.isAssignment = true := by simpa using hBoth
    match tokens, hValue.begins with
    | [token], _ =>
        obtain ⟨_, hRest⟩ := List.cons.inj hTokens
        obtain ⟨rfl, _⟩ := List.cons.inj hRest
        rw [hEnd] at hOperator
        cases hOperator
    | token :: token' :: tokens', _ =>
        obtain ⟨rfl, hRest⟩ := List.cons.inj hTokens
        obtain ⟨rfl, _⟩ := List.cons.inj hRest
        refine hValue.second_of_name rfl hName ?_
        cases hKind : token'.kind <;> rw [hKind] at hOperator <;>
          first | rfl | cases hOperator
  generalize tokens ++ semicolon :: rest = all at hSecond ⊢
  match all with
  | [] => rfl
  | [token] => rfl
  | name :: operator :: rest' =>
      rw [simple, if_neg (hSecond name operator rest' rfl)]

theorem verdict_simple_expression {tokens : List Token} {value : Expr}
    {semicolon : Token} (hValue : IsExpr loosest tokens value)
    (hEnd : semicolon.kind = .semicolon) (rest : List Token) :
    (simple (tokens ++ semicolon :: rest)).verdict =
      .clean (.expression value) rest := by
  have hStop : semicolon.kind.looseness? = none := by rw [hEnd]; rfl
  rw [simple_eq_expressionStatement hValue hEnd]
  simp only [expressionStatement, verdict_andThen, verdict_map,
    Verdict.bind_clean, verdict_expression_of_isExpr hValue hStop,
    verdict_expect_of_eq hEnd, Verdict.map_clean]

/-- What begins with an operand is left to `simple`. -/
theorem verdict_statement_of_beginsOperand {token : Token}
    (h : beginsOperand token.kind = true) (rest : List Token) :
    (statement (token :: rest)).verdict = (simple (token :: rest)).verdict := by
  apply verdict_statement_simple <;>
  · intro hKind
    rw [hKind] at h
    cases h

theorem namesVerdict_of_isNames {tokens names : List Token}
    (h : IsNames tokens names) {token : Token} (hToken : token.kind ≠ .comma)
    (rest : List Token) : ∀ before : List Token,
      namesVerdict before (tokens ++ token :: rest) =
        .clean (before.reverse ++ names) (token :: rest) := by
  induction h with
  | nil =>
      intro before
      rw [List.nil_append, namesVerdict_stop before hToken, List.append_nil]
  | @cons comma name tokens names hComma hName _ ih =>
      intro before
      show namesVerdict before (comma :: name :: (tokens ++ token :: rest)) = _
      rw [namesVerdict_comma before hComma, verdict_expect_of_eq hName,
        Verdict.bind_clean, ih (name :: before), List.reverse_cons,
        List.append_assoc]
      rfl

theorem verdict_declarationRest_of_isNames {type name semicolon : Token}
    {tokens names : List Token} (hName : name.kind = .identifier)
    (hMore : IsNames tokens names) (hEnd : semicolon.kind = .semicolon)
    (rest : List Token) :
    (declarationRest type (name :: (tokens ++ semicolon :: rest))).verdict =
      .clean (declareAll type (name :: names)) rest := by
  have hComma : semicolon.kind ≠ .comma := by rw [hEnd]; decide
  rw [verdict_declarationRest, verdict_expect_of_eq hName, Verdict.bind_clean,
    namesVerdict_of_isNames hMore hComma, Verdict.bind_clean,
    verdict_expect_of_eq hEnd]
  rfl

theorem branchesVerdict_of_then {condition : Expr} {thenPart : Stmt}
    {tokens rest : List Token}
    (hThen : (statement tokens).verdict = .clean thenPart rest)
    (hRest : ∀ token ∈ rest.head?, token.kind ≠ .elseWord) :
    branchesVerdict condition tokens =
      .clean (.ifThen condition thenPart) rest := by
  rw [branchesVerdict, hThen, Verdict.bind_clean]
  cases rest with
  | nil => rfl
  | cons token rest' => exact if_neg (hRest token rfl)

theorem branchesVerdict_of_else {condition : Expr} {thenPart : Stmt}
    {tokens rest : List Token} {token : Token}
    (hThen : (statement tokens).verdict = .clean thenPart (token :: rest))
    (hElse : token.kind = .elseWord) :
    branchesVerdict condition tokens =
      (statement rest).verdict.map (.ifThenElse condition thenPart) := by
  rw [branchesVerdict, hThen, Verdict.bind_clean]
  exact if_pos hElse

mutual

theorem verdict_declaration_of_isDecl {tokens : List Token} {stmt : Stmt}
    (h : IsDecl tokens stmt) (hNearest : stmt.ElseNearest)
    (rest : List Token) (hRest : Closes stmt rest) :
    (declaration (tokens ++ rest)).verdict = .clean stmt rest := by
  match h with
  | .one hType hName hEnd =>
      refine (verdict_declaration_type hType).trans ?_
      exact verdict_declarationRest_of_isNames hName .nil hEnd rest
  | @IsDecl.several type name semicolon tokens names hType hName hMore
      hSeveral hEnd =>
      rw [List.cons_append, verdict_declaration_type hType, List.cons_append,
        List.append_assoc]
      match names, hSeveral with
      | second :: names, _ =>
          exact verdict_declarationRest_of_isNames hName hMore hEnd rest
  | .statement hStmt =>
      have hRead := verdict_statement_of_isStmt hStmt hNearest rest hRest
      obtain ⟨token, tokens', rfl, hKind⟩ := hStmt.begins
      have hLong : token.kind ≠ .long := by
        intro h
        rw [h] at hKind
        cases hKind
      have hDouble : token.kind ≠ .double := by
        intro h
        rw [h] at hKind
        cases hKind
      exact (verdict_declaration_statement hLong hDouble).trans hRead

theorem verdict_statement_of_isStmt {tokens : List Token} {stmt : Stmt}
    (h : IsStmt tokens stmt) (hNearest : stmt.ElseNearest)
    (rest : List Token) (hRest : Closes stmt rest) :
    (statement (tokens ++ rest)).verdict = .clean stmt rest := by
  match h with
  | .read hWord hOpening hName hClosing hEnd =>
      exact (verdict_statement_read hWord).trans
        (verdict_readRest hOpening hName hClosing hEnd rest)
  | .write hWord hOpening hValue hClosing hEnd =>
      rw [List.cons_append, List.cons_append, List.append_assoc,
        verdict_statement_write hWord]
      exact verdict_writeRest hOpening hValue hClosing hEnd rest
  | .ifThen hWord hOpening hCondition hClosing hThen hFirst =>
      have hOpen := hRest rfl
      have hRead := verdict_statement_of_isStmt hFirst hNearest rest
        fun _ => hOpen
      rw [List.cons_append, List.cons_append, List.append_assoc,
        List.cons_append, List.cons_append, verdict_statement_if hWord,
        verdict_ifHead hOpening hCondition hClosing hThen,
        Verdict.bind_clean, branchesVerdict_of_then hRead hOpen]
  | @IsStmt.ifThenElse word opening closing thenWord elseWord tokens first
      second condition thenPart elsePart hWord hOpening hCondition hClosing
      hThen hFirst hElse hSecond =>
      obtain ⟨hClosed, hNearestThen, hNearestElse⟩ := hNearest
      have hReadThen := verdict_statement_of_isStmt hFirst hNearestThen
        (elseWord :: (second ++ rest)) (closes_of_endsOpen_eq_false hClosed _)
      have hReadElse := verdict_statement_of_isStmt hSecond hNearestElse rest
        hRest
      rw [List.cons_append, List.cons_append, List.append_assoc,
        List.cons_append, List.cons_append, List.append_assoc,
        List.cons_append, verdict_statement_if hWord,
        verdict_ifHead hOpening hCondition hClosing hThen,
        Verdict.bind_clean, branchesVerdict_of_else hReadThen hElse,
        hReadElse]
      rfl
  | .whileLoop hWord hOpening hCondition hClosing hBody =>
      have hRead := verdict_statement_of_isStmt hBody hNearest rest hRest
      rw [List.cons_append, List.cons_append, List.append_assoc,
        List.cons_append, verdict_statement_while hWord,
        verdict_whileHead hOpening hCondition hClosing,
        Verdict.bind_clean, hRead]
      rfl
  | @IsStmt.block opening closing tokens stmts hOpening hMembers hClosing =>
      have hRead := verdict_members_of_isProgram hMembers hNearest true
        (closing :: rest) fun token hMem => by
          cases hMem
          exact ⟨rfl, hClosing⟩
      rw [List.cons_append, List.append_assoc, List.singleton_append,
        verdict_statement_block hOpening, hRead, Verdict.bind_clean,
        verdict_expect_of_eq hClosing]
      rfl
  | @IsStmt.assign name _ _ _ _ hName hOperator hValue hEnd =>
      have hKind : beginsOperand name.kind = true := by rw [hName]; rfl
      rw [List.cons_append, List.cons_append, List.append_assoc,
        List.singleton_append, verdict_statement_of_beginsOperand hKind,
        verdict_simple_assign hName hOperator hValue hEnd]
  | .expression hValue hEnd =>
      rw [List.append_assoc, List.singleton_append]
      have hRead := verdict_simple_expression hValue hEnd rest
      obtain ⟨token, tokens', rfl, hKind⟩ := hValue.begins
      exact (verdict_statement_of_beginsOperand hKind _).trans hRead

/-- A program ends with the input, and inside a block in front of a closing
brace. -/
theorem verdict_members_of_isProgram {tokens : List Token}
    {stmts : List Stmt} (h : IsProgram tokens stmts)
    (hNearest : Stmt.ElsesNearest stmts) (inBlock : Bool) (rest : List Token)
    (hRest : ∀ token ∈ rest.head?,
      inBlock = true ∧ token.kind = .rightBrace) :
    (members inBlock (tokens ++ rest)).verdict = .clean stmts rest := by
  match h with
  | .nil =>
      match rest with
      | [] => exact verdict_members_nil inBlock
      | token :: rest' =>
          obtain ⟨rfl, hKind⟩ := hRest token rfl
          exact verdict_members_closing hKind
  | @IsProgram.cons first others stmt stmts hFirst hOthers =>
      obtain ⟨hNearestFirst, hNearestOthers⟩ := hNearest
      have hElse : ∀ token ∈ (others ++ rest).head?,
          token.kind ≠ .elseWord := by
        intro token hMem hKind
        match others, hOthers with
        | [], _ =>
            rw [(hRest token hMem).2] at hKind
            cases hKind
        | _, .cons hSecond _ =>
            obtain ⟨token', second, rfl, hBegins⟩ := hSecond.begins
            cases hMem
            rw [hKind] at hBegins
            cases hBegins
      have hReadFirst := verdict_declaration_of_isDecl hFirst hNearestFirst
        (others ++ rest) fun _ => hElse
      have hReadOthers := verdict_members_of_isProgram hOthers hNearestOthers
        inBlock rest hRest
      obtain ⟨token, first', rfl, hBegins⟩ := hFirst.begins
      have hOpen : inBlock = true → token.kind ≠ .rightBrace := by
        intro _ hKind
        rw [hKind] at hBegins
        cases hBegins
      rw [List.cons_append] at hReadFirst
      rw [List.append_assoc, List.cons_append, verdict_members_cons hOpen,
        hReadFirst, Verdict.bind_clean, hReadOthers]
      rfl

end

end ImpFront.Grammar
