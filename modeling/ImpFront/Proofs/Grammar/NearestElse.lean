import ImpFront.Proofs.Grammar.Completeness

/-!
# Every `else` has a nearest `if`

The grammar lets an `else` belong to any `if` before it that lacks one; the
reader gives it to the nearest. Nothing is lost by that. If the nearest
`if` is inside the first branch of the one that a derivation has in mind,
then the second branch can be moved there without a change to the tokens
(`Stmt.attachElse`). So every list of tokens that has a derivation has one
in which each `else` belongs to the nearest `if`.

## Main results

* `IsStmt.attachElse` — an `else` moves to the innermost open `if`.
* `IsProgram.exists_elsesNearest` — derivations can be chosen.
* `members_elsesNearest` — what is read has this form always, in broken
  programs too.
-/

namespace ImpFront

/-- Give an `else` to the innermost `if` that the statement leaves open. -/
def Stmt.attachElse : Stmt → Stmt → Stmt
  | ifThen condition thenPart, other =>
    if thenPart.endsOpen then ifThen condition (thenPart.attachElse other)
    else ifThenElse condition thenPart other
  | ifThenElse condition thenPart elsePart, other =>
    ifThenElse condition thenPart (elsePart.attachElse other)
  | whileLoop condition body, other =>
    whileLoop condition (body.attachElse other)
  | stmt, _ => stmt

theorem Stmt.elseNearest_attachElse {other : Stmt}
    (hOther : other.ElseNearest) (stmt : Stmt) (h : stmt.ElseNearest) :
    (stmt.attachElse other).ElseNearest := by
  match stmt with
  | .ifThen condition thenPart =>
      rw [Stmt.attachElse]
      split
      · exact Stmt.elseNearest_attachElse hOther thenPart h
      · next hClosed => exact ⟨by simpa using hClosed, h, hOther⟩
  | .ifThenElse condition thenPart elsePart =>
      obtain ⟨hClosed, hThen, hElse⟩ := h
      exact ⟨hClosed, hThen, Stmt.elseNearest_attachElse hOther elsePart hElse⟩
  | .whileLoop condition body =>
      exact Stmt.elseNearest_attachElse hOther body h
  | .declare .. | .expression _ | .assign .. | .read _ | .write _
  | .block _ => exact h

namespace Grammar

/-! ## Derivations -/

theorem IsStmt.attachElse {elseWord : Token} {tokens second : List Token}
    {stmt other : Stmt} (h : IsStmt tokens stmt)
    (hOpen : stmt.endsOpen = true) (hElse : elseWord.kind = .elseWord)
    (hOther : IsStmt second other) :
    IsStmt (tokens ++ elseWord :: second) (stmt.attachElse other) := by
  match h with
  | .read .. | .write .. | .block .. | .assign .. | .expression .. =>
      cases hOpen
  | @IsStmt.ifThen _ _ _ _ _ _ _ thenPart hWord hOpening hCondition hClosing
      hThen hFirst =>
      rw [Stmt.attachElse]
      split
      · next hInner =>
        have hMoved := hFirst.attachElse hInner hElse hOther
        simpa using
          IsStmt.ifThen hWord hOpening hCondition hClosing hThen hMoved
      · simpa using IsStmt.ifThenElse hWord hOpening hCondition hClosing hThen
          hFirst hElse hOther
  | .ifThenElse hWord hOpening hCondition hClosing hThen hFirst hElse'
      hSecond =>
      have hMoved := hSecond.attachElse hOpen hElse hOther
      rw [Stmt.attachElse]
      simpa using IsStmt.ifThenElse hWord hOpening hCondition hClosing hThen
        hFirst hElse' hMoved
  | .whileLoop hWord hOpening hCondition hClosing hBody =>
      have hMoved := hBody.attachElse hOpen hElse hOther
      rw [Stmt.attachElse]
      simpa using IsStmt.whileLoop hWord hOpening hCondition hClosing hMoved

mutual

theorem IsDecl.exists_elseNearest {tokens : List Token} {stmt : Stmt}
    (h : IsDecl tokens stmt) :
    ∃ nearest, IsDecl tokens nearest ∧ nearest.ElseNearest := by
  match h with
  | .one hType hName hEnd => exact ⟨_, .one hType hName hEnd, trivial⟩
  | .several hType hName hMore hSeveral hEnd =>
      refine ⟨_, .several hType hName hMore hSeveral hEnd, ?_⟩
      refine (Stmt.elsesNearest_iff _).2 ?_
      intro stmt hMem
      obtain ⟨name, _, rfl⟩ := List.mem_map.1 hMem
      trivial
  | .statement hStmt =>
      obtain ⟨nearest, hNearest, hElse⟩ := hStmt.exists_elseNearest
      exact ⟨nearest, .statement hNearest, hElse⟩

theorem IsStmt.exists_elseNearest {tokens : List Token} {stmt : Stmt}
    (h : IsStmt tokens stmt) :
    ∃ nearest, IsStmt tokens nearest ∧ nearest.ElseNearest := by
  match h with
  | .read hWord hOpening hName hClosing hEnd =>
      exact ⟨_, .read hWord hOpening hName hClosing hEnd, trivial⟩
  | .write hWord hOpening hValue hClosing hEnd =>
      exact ⟨_, .write hWord hOpening hValue hClosing hEnd, trivial⟩
  | .assign hName hOperator hValue hEnd =>
      exact ⟨_, .assign hName hOperator hValue hEnd, trivial⟩
  | .expression hValue hEnd => exact ⟨_, .expression hValue hEnd, trivial⟩
  | .block hOpening hMembers hClosing =>
      obtain ⟨nearest, hNearest, hElse⟩ := hMembers.exists_elsesNearest
      exact ⟨_, .block hOpening hNearest hClosing, hElse⟩
  | .whileLoop hWord hOpening hCondition hClosing hBody =>
      obtain ⟨nearest, hNearest, hElse⟩ := hBody.exists_elseNearest
      exact ⟨_, .whileLoop hWord hOpening hCondition hClosing hNearest, hElse⟩
  | .ifThen hWord hOpening hCondition hClosing hThen hFirst =>
      obtain ⟨nearest, hNearest, hElse⟩ := hFirst.exists_elseNearest
      exact ⟨_, .ifThen hWord hOpening hCondition hClosing hThen hNearest,
        hElse⟩
  | .ifThenElse hWord hOpening hCondition hClosing hThen hFirst hElse
      hSecond =>
      obtain ⟨first, hIsFirst, hNearestFirst⟩ := hFirst.exists_elseNearest
      obtain ⟨second, hIsSecond, hNearestSecond⟩ :=
        hSecond.exists_elseNearest
      by_cases hOpen : first.endsOpen = true
      · have hMoved := hIsFirst.attachElse hOpen hElse hIsSecond
        exact ⟨_, .ifThen hWord hOpening hCondition hClosing hThen hMoved,
          Stmt.elseNearest_attachElse hNearestSecond first hNearestFirst⟩
      · exact ⟨_, .ifThenElse hWord hOpening hCondition hClosing hThen
            hIsFirst hElse hIsSecond,
          by simpa using hOpen, hNearestFirst, hNearestSecond⟩

/-- A program that has a derivation has one in which every `else` belongs
to the nearest `if`. -/
theorem IsProgram.exists_elsesNearest {tokens : List Token}
    {stmts : List Stmt} (h : IsProgram tokens stmts) :
    ∃ nearest, IsProgram tokens nearest ∧ Stmt.ElsesNearest nearest := by
  match h with
  | .nil => exact ⟨[], .nil, trivial⟩
  | .cons hFirst hRest =>
      obtain ⟨first, hIsFirst, hNearestFirst⟩ := hFirst.exists_elseNearest
      obtain ⟨rest, hIsRest, hNearestRest⟩ := hRest.exists_elsesNearest
      exact ⟨first :: rest, .cons hIsFirst hIsRest, hNearestFirst,
        hNearestRest⟩

end

/-! ## What is read -/

section Ensures

variable {α β : Type} {bound bound' : Nat}

/-- If the rule accepts, then with such a value and such tokens left. -/
def Outcome.Ensures (P : α → List Token → Prop) : Outcome α bound → Prop
  | accept value rest _ => P value rest
  | reject _ _ _ => True

theorem ensures_weaken {P : α → List Token → Prop} (h : bound ≤ bound')
    {outcome : Outcome α bound} (hEnsures : outcome.Ensures P) :
    (outcome.weaken h).Ensures P := by
  cases outcome with
  | accept value rest _ => exact hEnsures
  | reject _ _ _ => trivial

theorem ensures_map {P : β → List Token → Prop} {f : α → β}
    {outcome : Outcome α bound} (h : ∀ value rest, P (f value) rest) :
    (outcome.map f).Ensures P := by
  cases outcome with
  | accept value rest _ => exact h value rest
  | reject _ _ _ => trivial

theorem ensures_andThen {P : β → List Token → Prop}
    {first : Outcome α bound}
    {second : α → (rest : List Token) → Outcome β rest.length}
    (h : ∀ value rest, (second value rest).Ensures P) :
    (first.andThen second).Ensures P := by
  cases first with
  | accept value rest hLess =>
      exact ensures_weaken (Nat.le_of_lt hLess) (h value rest)
  | reject _ _ _ => trivial

end Ensures

/-- A statement that may be read here: its `else`s are in place, and none
follows that it could take. -/
def Settled (stmt : Stmt) (rest : List Token) : Prop :=
  stmt.ElseNearest ∧ Closes stmt rest

theorem settled_of_closed {stmt : Stmt} (hNearest : stmt.ElseNearest)
    (hClosed : stmt.endsOpen = false) (rest : List Token) :
    Settled stmt rest :=
  ⟨hNearest, closes_of_endsOpen_eq_false hClosed rest⟩

theorem readRest_settled (tokens : List Token) :
    (readRest tokens).Ensures Settled := by
  apply ensures_andThen
  intro _ tokens
  apply ensures_andThen
  intro name tokens
  apply ensures_andThen
  intro _ tokens
  exact ensures_map fun _ => settled_of_closed trivial rfl

theorem writeRest_settled (tokens : List Token) :
    (writeRest tokens).Ensures Settled := by
  apply ensures_andThen
  intro _ tokens
  apply ensures_andThen
  intro value tokens
  apply ensures_andThen
  intro _ tokens
  exact ensures_map fun _ => settled_of_closed trivial rfl

theorem expressionStatement_settled (tokens : List Token) :
    (expressionStatement tokens).Ensures Settled := by
  apply ensures_andThen
  intro value tokens
  exact ensures_map fun _ => settled_of_closed trivial rfl

theorem simple_settled (tokens : List Token) :
    (simple tokens).Ensures Settled := by
  unfold simple
  split
  · split
    · apply ensures_weaken _
      apply ensures_andThen
      intro value tokens
      exact ensures_map fun _ => settled_of_closed trivial rfl
    · exact expressionStatement_settled _
  · exact expressionStatement_settled _

theorem declareAll_settled (type : Token) (names rest : List Token) :
    Settled (declareAll type names) rest := by
  unfold declareAll
  split
  · next name =>
    have hNearest : (Stmt.declare type name).ElseNearest := trivial
    exact settled_of_closed hNearest rfl rest
  · have hNearest : (Stmt.block (names.map (.declare type))).ElseNearest := by
      refine (Stmt.elsesNearest_iff _).2 ?_
      intro stmt hMem
      obtain ⟨name, _, rfl⟩ := List.mem_map.1 hMem
      trivial
    exact settled_of_closed hNearest rfl rest

theorem declarationRest_settled (type : Token) (tokens : List Token) :
    (declarationRest type tokens).Ensures Settled := by
  unfold declarationRest
  split
  · apply ensures_andThen
    intro names tokens
    exact ensures_map fun _ => declareAll_settled type names
  · trivial

mutual

theorem statement_settled (tokens : List Token) :
    (statement tokens).outcome.Ensures Settled := by
  match tokens with
  | [] => rw [statement]; exact expressionStatement_settled []
  | token :: rest =>
      rw [statement]
      split
      · exact ensures_weaken (Nat.le_succ _) (readRest_settled rest)
      · exact ensures_weaken (Nat.le_succ _) (writeRest_settled rest)
      · split
        · trivial
        · exact branches_settled ..
      · split
        · trivial
        · next condition rest' _ _ =>
          have ih := statement_settled rest'
          split <;> rename_i hBody <;> rw [hBody] at ih
          · exact ih
          · trivial
      · have hMembers := sequence_elseNearest true #[] #[] rest
          (Nat.le_refl rest.length) (by simp)
        refine ensures_weaken (Nat.le_succ_of_le (Sequence.notLonger _))
          (ensures_map fun _ => ?_)
        exact settled_of_closed ((Stmt.elsesNearest_iff _).2 hMembers) rfl
      · exact simple_settled _
termination_by (tokens.length, 0)

theorem branches_settled (condition : Expr) (tokens : List Token)
    (bound : Nat) (shorter : tokens.length < bound) :
    (branches condition tokens bound shorter).outcome.Ensures Settled := by
  have ih := statement_settled tokens
  rw [branches]
  split
  · trivial
  · next hThen =>
    rw [hThen] at ih
    exact ⟨ih.1, fun _ _ hMem => by cases hMem⟩
  · next token rest hLess hThen =>
    rw [hThen] at ih
    obtain ⟨hNearest, hCloses⟩ := ih
    split
    · next hElse =>
      have hRest : rest.length < tokens.length := Nat.lt_of_succ_lt hLess
      have hSecond := statement_settled rest
      split <;> rename_i hElsePart <;> rw [hElsePart] at hSecond
      · trivial
      · have hClosed : ¬_ = true := fun hOpen =>
          hCloses hOpen token rfl hElse
        exact ⟨⟨by simpa using hClosed, hNearest, hSecond.1⟩, hSecond.2⟩
    · next hElse => exact ⟨hNearest, closes_of_ne hElse _ _⟩
termination_by (tokens.length, 1)

theorem declaration_settled (tokens : List Token) :
    (declaration tokens).outcome.Ensures Settled := by
  match tokens with
  | [] => rw [declaration]; exact statement_settled []
  | token :: rest =>
      rw [declaration]
      split
      · exact ensures_weaken (Nat.le_succ _) (declarationRest_settled token rest)
      · exact ensures_weaken (Nat.le_succ _) (declarationRest_settled token rest)
      · exact statement_settled (token :: rest)
termination_by (tokens.length, 1)

theorem sequence_elseNearest {bound : Nat} (inBlock : Bool)
    (stmts : Array Stmt) (failures : Array Failure) (tokens : List Token)
    (notLonger : tokens.length ≤ bound)
    (hStmts : ∀ stmt ∈ stmts.toList, stmt.ElseNearest) :
    ∀ stmt ∈ (sequence inBlock stmts failures tokens notLonger).stmts.toList,
      stmt.ElseNearest := by
  match tokens with
  | [] => rw [sequence]; exact hStmts
  | token :: rest =>
      have hStmt := declaration_settled (token :: rest)
      rw [sequence]
      split
      · exact hStmts
      · split
        · next stmt rest' _ hRead =>
          rw [hRead] at hStmt
          apply sequence_elseNearest inBlock _ _ rest' _
          intro stmt' hMem
          rw [Array.toList_push, List.mem_append, List.mem_singleton] at hMem
          rcases hMem with hMem | rfl
          · exact hStmts stmt' hMem
          · exact hStmt.1
        · next rest' hLe _ =>
          have hLess := length_recover_lt_of_le (Nat.succ_pos rest.length) hLe
          exact sequence_elseNearest inBlock _ _ (recover rest') _ hStmts
termination_by (tokens.length, 2)

end

/-- Whatever is broken, what is kept of a program has every `else` at the
nearest `if`. -/
theorem members_elsesNearest (inBlock : Bool) (tokens : List Token) :
    Stmt.ElsesNearest (members inBlock tokens).stmts :=
  (Stmt.elsesNearest_iff _).2
    (sequence_elseNearest inBlock #[] #[] tokens _ (by simp))

end Grammar

end ImpFront
