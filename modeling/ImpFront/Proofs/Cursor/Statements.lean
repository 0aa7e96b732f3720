import ImpFront.Proofs.Cursor.Rules

/-!
# Statements read with a cursor

The statement rules of the machine do what the rules of the grammar do,
and so do the loops that collect statements. A turn of such a loop always
brings the cursor on: a rule that accepts has read something, and behind a
rule that fails at least one token is passed over, since a turn only
begins in front of a token.

## Main results

* `statement_reads`, `declaration_reads` — statements.
* `sequence_reads` — a loop collects what the grammar says.
-/

namespace ImpFront

open Token (Kind)
open Grammar (Reading)

namespace Cursor

/-! ## Statements without other statements in them -/

section Statement

variable {stream : Stream} {token : Token} {rest : List Token} {fuel : Nat}

theorem readStatement_reads (rest : List Token) :
    Reads stream readStatement rest (Grammar.readRest rest).reading := by
  simp only [Grammar.readRest, Grammar.reading_andThen, Grammar.reading_map]
  apply (consume_reads _ _).bind
  intro _ rest
  apply (consume_reads _ _).bind
  intro name rest
  apply (consume_reads _ _).bind
  intro _ rest
  exact (consume_reads _ _).map

theorem writeStatement_reads (rest : List Token)
    (hFuel : 8 * rest.length ≤ fuel) :
    Reads stream (writeStatement fuel) rest (Grammar.writeRest rest).reading := by
  simp only [Grammar.writeRest, Grammar.reading_andThen, Grammar.reading_map]
  apply (consume_reads _ _).bind_of
  intro mended _ rest' hReading
  have hLess := Grammar.Outcome.length_lt_of_reading hReading
  apply (expression_reads fuel rest' (by omega)).bind
  intro value rest
  apply (consume_reads _ _).bind
  intro _ rest
  exact (consume_reads _ _).map

theorem ifHead_reads (rest : List Token) (hFuel : 8 * rest.length ≤ fuel) :
    Reads stream (ifHead fuel) rest (Grammar.ifHead rest).reading := by
  simp only [Grammar.ifHead, Grammar.reading_andThen, Grammar.reading_map]
  apply (consume_reads _ _).bind_of
  intro mended _ rest' hReading
  have hLess := Grammar.Outcome.length_lt_of_reading hReading
  apply (expression_reads fuel rest' (by omega)).bind
  intro condition rest
  apply (consume_reads _ _).bind
  intro _ rest
  exact (consume_reads _ _).map

theorem whileHead_reads (rest : List Token) (hFuel : 8 * rest.length ≤ fuel) :
    Reads stream (whileHead fuel) rest (Grammar.whileHead rest).reading := by
  simp only [Grammar.whileHead, Grammar.reading_andThen, Grammar.reading_map]
  apply (consume_reads _ _).bind_of
  intro mended _ rest' hReading
  have hLess := Grammar.Outcome.length_lt_of_reading hReading
  apply (expression_reads fuel rest' (by omega)).bind
  intro condition rest
  exact (consume_reads _ _).map

theorem expressionStatement_reads (rest : List Token)
    (hFuel : 8 * rest.length + 8 ≤ fuel) :
    Reads stream (expressionStatement fuel) rest
      (Grammar.expressionStatement rest).reading := by
  simp only [Grammar.expressionStatement, Grammar.reading_andThen,
    Grammar.reading_map]
  apply (expression_reads fuel rest hFuel).bind
  intro value rest
  exact (consume_reads _ _).map

theorem mem_assignment {kind : Kind} :
    kind ∈ [Kind.assign, .plusAssign, .minusAssign, .timesAssign, .divideAssign] ↔
      kind.isAssignment = true := by
  cases kind <;> decide

/-- Where an assignment begins, the name and the operator are there. -/
theorem assignStatement_reads {operator : Token}
    (hName : token.kind = .identifier)
    (hOperator : operator.kind.isAssignment = true) (rest : List Token)
    (hFuel : 8 * rest.length + 8 ≤ fuel) :
    Reads stream (assignStatement fuel) (token :: operator :: rest)
      (Grammar.assignmentRest token operator rest).reading := by
  simp only [Grammar.assignmentRest, Grammar.reading_andThen,
    Grammar.reading_map]
  apply Reads.of_suffix
  intro hSuffix
  have hOperatorSuffix := (List.suffix_cons token _).trans hSuffix
  apply Reads.step (fun _ => (check_of_eq hName).bind advance_cons)
  apply Reads.match_of_mem (mem_assignment.2 hOperator)
  apply Reads.previous hOperatorSuffix
  apply (expression_reads fuel rest hFuel).bind
  intro value rest
  exact (consume_reads _ _).map

/-- One token of look-ahead tells an assignment from an expression. -/
theorem simple_reads (token : Token) (rest : List Token)
    (hFuel : 8 * (token :: rest).length + 8 ≤ fuel) :
    Reads stream
      (beginsAssignment >>= fun begins =>
        if begins then assignStatement fuel else expressionStatement fuel)
      (token :: rest) (Grammar.simple (token :: rest)).reading := by
  by_cases hName : token.kind = .identifier
  · have hBegins (errors : List SyntaxError) :
        Ends (At stream (token :: rest) errors) beginsAssignment
          (.ok (stream.front rest).kind.isAssignment)
          (At stream (token :: rest) errors) :=
      (check_of_eq hName).bind (peekNext_cons.bind (.pure _))
    apply Reads.step hBegins
    by_cases hOperator : (stream.front rest).kind.isAssignment = true
    · rw [hOperator]
      cases rest with
      | nil =>
          have hFinish : stream.finish.kind.isAssignment = true := hOperator
          rw [stream.kind_finish] at hFinish
          cases hFinish
      | cons operator rest =>
          have hAssign : operator.kind.isAssignment = true := hOperator
          rw [Grammar.reading_simple_assign hName hAssign]
          have hLess : 8 * rest.length + 8 ≤ fuel := by
            rw [List.length_cons, List.length_cons] at hFuel
            omega
          exact assignStatement_reads hName hAssign rest hLess
    · rw [Bool.eq_false_iff.2 hOperator, Grammar.reading_simple_expression]
      · exact expressionStatement_reads (token :: rest) hFuel
      · intro operator hHead hBoth
        rw [Stream.front, hHead] at hOperator
        exact hOperator hBoth.2
  · rw [Grammar.reading_simple_expression fun _ _ hBoth => hName hBoth.1]
    exact .step (fun _ => (check_of_ne hName).bind (.pure false))
      (expressionStatement_reads (token :: rest) hFuel)

/-- The machine collects declarations where the grammar collects names. -/
theorem moreDeclarations_reads (fuel : Nat) (type : Token)
    (names rest : List Token) (stmts : Array Stmt)
    (hFuel : rest.length < fuel)
    (hStmts : stmts = (names.reverse.map (.declare type)).toArray) :
    Reads stream (moreDeclarations fuel type stmts) rest
      ((Grammar.namesReading names rest).map fun names =>
        (names.map (.declare type)).toArray) := by
  induction fuel generalizing names rest stmts with
  | zero => cases hFuel
  | succ fuel ih =>
      rw [moreDeclarations]
      cases rest with
      | nil =>
          rw [Grammar.namesReading_nil, Reading.map_accept, ← hStmts]
          exact .match_nil (.pure stmts)
      | cons token rest =>
          by_cases hComma : token.kind = .comma
          · rw [Grammar.namesReading_comma names hComma, Reading.map,
              Reading.bind_assoc]
            apply Reads.match_of_mem (by simp [hComma])
            apply (consume_reads _ _).bind_of
            intro mended name rest' hReading
            have hLess := Grammar.Outcome.length_lt_of_reading hReading
            have hLess' : rest'.length < fuel :=
              Nat.lt_trans hLess (Nat.lt_of_succ_lt_succ hFuel)
            apply ih (name :: names) rest' _ hLess'
            rw [hStmts]
            simp
          · rw [Grammar.namesReading_stop names hComma, Reading.map_accept,
              ← hStmts]
            exact .match_of_not_mem (by simpa using hComma) (.pure stmts)

theorem varDeclaration_reads (type : Token) (rest : List Token)
    (hFuel : rest.length < fuel) :
    Reads stream (varDeclaration fuel type) rest
      (Grammar.declarationRest type rest).reading := by
  rw [varDeclaration, Grammar.reading_declarationRest]
  apply (consume_reads _ _).bind_of
  intro mended name rest' hReading
  have hLess := Grammar.Outcome.length_lt_of_reading hReading
  have hLess' : rest'.length < fuel := Nat.lt_trans hLess hFuel
  apply (moreDeclarations_reads fuel type [name] rest' _ hLess' rfl).bind_map
  intro names rest
  apply (consume_reads _ _).bind
  intro _ rest
  cases names with
  | nil => exact .pure _
  | cons name names =>
      cases names with
      | nil => exact .pure _
      | cons name' names => exact .pure _

/-! ## Statements in statements -/

theorem endsSequence_nil {inBlock : Bool} {errors : List SyntaxError} :
    Ends (At stream [] errors) (endsSequence inBlock) (.ok true)
      (At stream [] errors) := by
  cases inBlock with
  | false => exact isAtEnd_nil
  | true => exact check_nil.bind isAtEnd_nil

theorem endsSequence_closing {errors : List SyntaxError}
    (h : token.kind = .rightBrace) :
    Ends (At stream (token :: rest) errors) (endsSequence true) (.ok true)
      (At stream (token :: rest) errors) :=
  (check_of_eq h).bind (.pure true)

theorem endsSequence_open {inBlock : Bool} {errors : List SyntaxError}
    (h : inBlock = true → token.kind ≠ .rightBrace) :
    Ends (At stream (token :: rest) errors) (endsSequence inBlock) (.ok false)
      (At stream (token :: rest) errors) := by
  cases inBlock with
  | false => exact isAtEnd_cons
  | true => exact (check_of_ne (h rfl)).bind isAtEnd_cons

/-- A turn of a loop that has read something is in order. -/
theorem endTurn_at {before : Nat} {errors : List SyntaxError}
    (h : before + rest.length < stream.unread.length) :
    Ends (At stream rest errors) (endTurn before) (.ok ())
      (At stream rest errors) := by
  apply Ends.get
  intro cursor hCursor
  have hCurrent := hCursor.current
  have hEvent : (Event.turn before cursor.current).Within stream.tokens.length
      stream.unread.length := by
    constructor
    · omega
    · omega
  exact (record_at _ hEvent).mono (fun _ h => h ▸ hCursor) fun _ h => h

mutual

theorem statement_reads (fuel : Nat) (rest : List Token)
    (hFuel : 8 * rest.length + 9 ≤ fuel) :
    Reads stream (statement fuel) rest (Grammar.statement rest).reading := by
  match fuel, rest with
  | 0, _ => omega
  | fuel + 1, [] =>
      have hEmpty : 8 * ([] : List Token).length + 8 ≤ fuel :=
        Nat.le_of_succ_le_succ hFuel
      rw [statement, Grammar.reading_statement_nil,
        ← Grammar.reading_expressionStatement_nil]
      apply Reads.match_nil
      apply Reads.match_nil
      apply Reads.match_nil
      apply Reads.match_nil
      apply Reads.match_nil
      exact .step (fun _ => check_nil.bind (.pure false))
        (expressionStatement_reads [] hEmpty)
  | fuel + 1, token :: rest =>
      have hCons : 8 * (token :: rest).length + 8 ≤ fuel :=
        Nat.le_of_succ_le_succ hFuel
      have hRest : 8 * rest.length + 16 ≤ fuel := hCons
      rw [statement]
      by_cases hRead : token.kind = .read
      · rw [Grammar.reading_statement_read hRead]
        exact .match_of_mem (by simp [hRead]) (readStatement_reads rest)
      apply Reads.match_of_not_mem (by simpa using hRead)
      by_cases hWrite : token.kind = .write
      · rw [Grammar.reading_statement_write hWrite]
        exact .match_of_mem (by simp [hWrite])
          (writeStatement_reads rest (by omega))
      apply Reads.match_of_not_mem (by simpa using hWrite)
      by_cases hIf : token.kind = .ifWord
      · rw [Grammar.reading_statement_if hIf]
        exact .match_of_mem (by simp [hIf])
          (ifStatement_reads fuel rest (by omega))
      apply Reads.match_of_not_mem (by simpa using hIf)
      by_cases hWhile : token.kind = .whileWord
      · rw [Grammar.reading_statement_while hWhile]
        exact .match_of_mem (by simp [hWhile])
          (whileStatement_reads fuel rest (by omega))
      apply Reads.match_of_not_mem (by simpa using hWhile)
      by_cases hBlock : token.kind = .leftBrace
      · rw [Grammar.reading_statement_block hBlock]
        exact .match_of_mem (by simp [hBlock])
          (block_reads fuel rest (by omega))
      apply Reads.match_of_not_mem (by simpa using hBlock)
      rw [Grammar.reading_statement_simple hRead hWrite hIf hWhile hBlock]
      exact simple_reads token rest hCons
termination_by fuel

theorem ifStatement_reads (fuel : Nat) (rest : List Token)
    (hFuel : 8 * rest.length + 9 ≤ fuel) :
    Reads stream (ifStatement fuel) rest
      ((Grammar.ifHead rest).reading.bind Grammar.branchesReading) := by
  match fuel with
  | 0 => omega
  | fuel + 1 =>
      rw [ifStatement]
      apply (ifHead_reads rest (by omega)).bind_of
      intro mended condition rest' hReading
      have hLess := Grammar.Outcome.length_lt_of_reading hReading
      apply (statement_reads fuel rest' (by omega)).bind_of
      intro mended thenPart rest'' hThen
      have hLess' := Grammar.Attempt.length_lt_of_reading hThen
      cases rest'' with
      | nil => exact .match_nil (.pure _)
      | cons token rest'' =>
          by_cases hElse : token.kind = .elseWord
          · simp only [Grammar.elseReading, if_pos hElse]
            rw [List.length_cons] at hLess'
            exact .match_of_mem (by simp [hElse])
              (statement_reads fuel rest'' (by omega)).map
          · simp only [Grammar.elseReading, if_neg hElse]
            exact .match_of_not_mem (by simpa using hElse) (.pure _)
termination_by fuel

theorem whileStatement_reads (fuel : Nat) (rest : List Token)
    (hFuel : 8 * rest.length + 9 ≤ fuel) :
    Reads stream (whileStatement fuel) rest
      ((Grammar.whileHead rest).reading.bind fun condition rest =>
        (Grammar.statement rest).reading.map (.whileLoop condition)) := by
  match fuel with
  | 0 => omega
  | fuel + 1 =>
      rw [whileStatement]
      apply (whileHead_reads rest (by omega)).bind_of
      intro mended condition rest' hReading
      have hLess := Grammar.Outcome.length_lt_of_reading hReading
      exact (statement_reads fuel rest' (by omega)).map
termination_by fuel

/-- A block, as a statement. -/
theorem block_reads (fuel : Nat) (rest : List Token)
    (hFuel : 8 * rest.length + 12 ≤ fuel) :
    Reads stream (block fuel >>= fun stmts => pure (Stmt.block stmts)) rest
      ((Grammar.members true rest).reading.bind fun stmts rest =>
        (Grammar.expect .rightBrace .blockClosing rest).reading.map fun _ =>
          .block stmts) := by
  match fuel with
  | 0 => omega
  | fuel + 1 =>
      rw [block]
      simp only [bind_assoc, pure_bind]
      apply (sequence_reads fuel true #[] rest (by omega)).bind_map
      intro stmts rest'
      simp only [Array.empty_append]
      exact (consume_reads _ _).map
termination_by fuel

theorem declaration_reads (fuel : Nat) (rest : List Token)
    (hFuel : 8 * rest.length + 10 ≤ fuel) :
    Reads stream (declaration fuel) rest
      (Grammar.declaration rest).reading := by
  match fuel, rest with
  | 0, _ => omega
  | fuel + 1, [] =>
      rw [declaration, Grammar.reading_declaration_nil,
        ← Grammar.reading_statement_nil]
      exact .match_nil (statement_reads fuel [] (Nat.le_of_succ_le_succ hFuel))
  | fuel + 1, token :: rest =>
      have hCons : 8 * (token :: rest).length + 9 ≤ fuel :=
        Nat.le_of_succ_le_succ hFuel
      have hRest : 8 * rest.length + 17 ≤ fuel := hCons
      rw [declaration]
      by_cases hType : token.kind = .long ∨ token.kind = .double
      · rw [Grammar.reading_declaration_type hType]
        apply Reads.of_suffix
        intro hSuffix
        apply Reads.match_of_mem (by simpa using hType)
        exact .previous hSuffix (varDeclaration_reads token rest (by omega))
      · rw [Grammar.reading_declaration_statement (fun h => hType (.inl h))
          (fun h => hType (.inr h))]
        exact .match_of_not_mem (by simpa using hType)
          (statement_reads fuel (token :: rest) hCons)
termination_by fuel

theorem sequence_reads (fuel : Nat) (inBlock : Bool) (stmts : Array Stmt)
    (rest : List Token) (hFuel : 8 * rest.length + 11 ≤ fuel) :
    Reads stream (sequence fuel inBlock stmts) rest
      ((Grammar.members inBlock rest).reading.map fun more =>
        stmts ++ more.toArray) := by
  match fuel, rest with
  | 0, _ => omega
  | fuel + 1, [] =>
      rw [sequence, Grammar.reading_members_nil, Reading.map_accept,
        Array.append_empty]
      exact .step (fun _ => endsSequence_nil) (.pure stmts)
  | fuel + 1, token :: rest =>
      have hCons : 8 * (token :: rest).length + 10 ≤ fuel :=
        Nat.le_of_succ_le_succ hFuel
      rw [sequence]
      by_cases hOpen : inBlock = true → token.kind ≠ .rightBrace
      · rw [Grammar.reading_members_cons hOpen, Reading.map_mend]
        apply Reads.step (fun _ => endsSequence_open hOpen)
        apply Reads.get
        intro cursor hCurrent
        apply (declaration_reads fuel (token :: rest) hCons).mend
        · intro mended stmt rest' hReading
          have hLess := Grammar.Attempt.length_lt_of_reading hReading
          apply Reads.step (fun _ => endTurn_at (by omega))
          have hMore := sequence_reads fuel inBlock (stmts.push stmt) rest'
            (by omega)
          rw [Reading.map_map]
          simpa using hMore
        · intro mended failure rest' hReading
          -- the rule may have read nothing, but recovery passes over a token
          have hLe := (Grammar.declaration (token :: rest)).length_rest_reading_le
          rw [hReading] at hLe
          have hLess : (Grammar.recover rest').length < (token :: rest).length :=
            Grammar.length_recover_lt_of_le (Nat.succ_pos rest.length) hLe
          have hRecover : rest'.length < fuel := by
            have hRest : rest'.length ≤ (token :: rest).length := hLe
            omega
          apply Reads.step (fun _ => synchronize_at hRecover)
          apply Reads.step (fun _ => endTurn_at (by omega))
          exact sequence_reads fuel inBlock stmts (Grammar.recover rest')
            (by omega)
      · obtain ⟨rfl, hClosing⟩ := Classical.not_imp.1 hOpen
        have hKind := Classical.not_not.1 hClosing
        rw [Grammar.reading_members_closing hKind, Reading.map_accept,
          Array.append_empty]
        exact .step (fun _ => endsSequence_closing hKind) (.pure stmts)
termination_by fuel

end

end Statement

end Cursor

end ImpFront
