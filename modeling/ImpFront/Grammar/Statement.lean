import ImpFront.Stmt
import ImpFront.Grammar.Expression
import ImpFront.Grammar.Recovery

/-!
# Statements read from tokens

Each statement but three is read by a rule without recursion: a fixed
order of tokens and at most one expression. The branches of a condition
and the body of a loop are statements again, and a block is a sequence of
declarations and statements.

A broken statement ends there, and the sequence that it belongs to goes on
behind it: `sequence` drops what was broken, recovers, and collects the
failures. So a statement rule returns, besides its own outcome, the
failures that sequences inside it have mended. An `else` belongs to the
nearest `if` before it that can take it.

## Main results

* `members_nil`, `members_closing`, `members_accept`, `members_reject` —
  a sequence, statement by statement.
-/

namespace ImpFront.Grammar

/-! ## Rules without recursion -/

/-- A name, parentheses around it, and a semicolon. -/
def readRest (tokens : List Token) : Outcome Stmt tokens.length :=
  (expect .leftParen .readOpening tokens).andThen fun _ tokens =>
  (expect .identifier .readName tokens).andThen fun name tokens =>
  (expect .rightParen .readClosing tokens).andThen fun _ tokens =>
  (expect .semicolon .readEnd tokens).map fun _ =>
  .read name

/-- An expression, parentheses around it, and a semicolon. -/
def writeRest (tokens : List Token) : Outcome Stmt tokens.length :=
  (expect .leftParen .writeOpening tokens).andThen fun _ tokens =>
  (expression tokens).andThen fun value tokens =>
  (expect .rightParen .writeClosing tokens).andThen fun _ tokens =>
  (expect .semicolon .writeEnd tokens).map fun _ =>
  .write value

/-- The condition of a branch, parentheses around it, and `then`. -/
def ifHead (tokens : List Token) : Outcome Expr tokens.length :=
  (expect .leftParen .ifOpening tokens).andThen fun _ tokens =>
  (expression tokens).andThen fun condition tokens =>
  (expect .rightParen .ifClosing tokens).andThen fun _ tokens =>
  (expect .thenWord .ifThen tokens).map fun _ =>
  condition

/-- The condition of a loop, and parentheses around it. -/
def whileHead (tokens : List Token) : Outcome Expr tokens.length :=
  (expect .leftParen .whileOpening tokens).andThen fun _ tokens =>
  (expression tokens).andThen fun condition tokens =>
  (expect .rightParen .whileClosing tokens).map fun _ =>
  condition

/-- An expression and a semicolon. -/
def expressionStatement (tokens : List Token) : Outcome Stmt tokens.length :=
  (expression tokens).andThen fun value tokens =>
  (expect .semicolon .expressionEnd tokens).map fun _ =>
  .expression value

/-- The value assigned to a variable, and a semicolon. -/
def assignmentRest (name operator : Token) (tokens : List Token) :
    Outcome Stmt tokens.length :=
  (expression tokens).andThen fun value tokens =>
  (expect .semicolon .assignmentEnd tokens).map fun _ =>
  .assign name operator value

/-- An assignment if an assignment operator follows the name in front, and
an expression otherwise. -/
def simple : (tokens : List Token) → Outcome Stmt tokens.length
  | name :: operator :: rest =>
    if name.kind = .identifier && operator.kind.isAssignment then
      (assignmentRest name operator rest).weaken
        (Nat.le_succ_of_le (Nat.le_succ _))
    else expressionStatement (name :: operator :: rest)
  | tokens => expressionStatement tokens

/-- A comma and a name, as often as they follow each other, behind the
names `names`, of which the latest is in front. -/
def moreNames {bound : Nat} (names : List Token) (tokens : List Token)
    (shorter : tokens.length < bound) : Outcome (List Token) bound :=
  match tokens with
  | [] => .accept names.reverse [] shorter
  | token :: rest =>
    if token.kind = .comma then
      match expect .identifier .anotherDeclarationName rest with
      | .accept name rest' h =>
        moreNames (name :: names) rest'
          (Nat.lt_trans (Nat.lt_succ_of_lt h) shorter)
      | .reject failure rest' h =>
        .reject failure rest'
          (Nat.le_trans (Nat.le_succ_of_le h) (Nat.le_of_lt shorter))
    else .accept names.reverse (token :: rest) shorter
termination_by tokens.length

/-- The declaration of names with a type: one declaration for one name,
and for several a block of them. -/
def declareAll (type : Token) : List Token → Stmt
  | [name] => .declare type name
  | names => .block (names.map (.declare type))

/-- What follows the type of a declaration: names with commas between
them, and a semicolon. -/
def declarationRest (type : Token) (tokens : List Token) :
    Outcome Stmt tokens.length :=
  match expect .identifier .declarationName tokens with
  | .accept name rest h =>
    (moreNames [name] rest h).andThen fun names tokens =>
    (expect .semicolon .declarationEnd tokens).map fun _ =>
    declareAll type names
  | .reject failure rest h => .reject failure rest h

/-! ## Rules with recursion -/

/-- The result of a statement rule, and before it in time the failures of
broken statements inside, which were mended. -/
structure Attempt (bound : Nat) where
  mended : Array Failure
  outcome : Outcome Stmt bound

namespace Attempt

variable {bound bound' : Nat}

/-- The result of a rule that holds no other statements. -/
def ofOutcome (outcome : Outcome Stmt bound) : Attempt bound :=
  ⟨#[], outcome⟩

/-- The same result, seen from a longer list. -/
def weaken (h : bound ≤ bound') (attempt : Attempt bound) : Attempt bound' :=
  ⟨attempt.mended, attempt.outcome.weaken h⟩

end Attempt

/-- What a sequence of statements comes to: the statements that were not
broken, the failures of those that were, and the tokens left. -/
structure Sequence (bound : Nat) where
  stmts : Array Stmt
  failures : Array Failure
  rest : List Token
  notLonger : rest.length ≤ bound

mutual

/-- A statement. -/
def statement : (tokens : List Token) → Attempt tokens.length
  | [] => .ofOutcome (expressionStatement [])
  | token :: rest =>
    match token.kind with
    | .read => .ofOutcome ((readRest rest).weaken (Nat.le_succ _))
    | .write => .ofOutcome ((writeRest rest).weaken (Nat.le_succ _))
    | .ifWord =>
      match ifHead rest with
      | .reject failure rest' h =>
        ⟨#[], .reject failure rest' (Nat.le_succ_of_le h)⟩
      | .accept condition rest' h => branches condition rest' _ (by simp; omega)
    | .whileWord =>
      match whileHead rest with
      | .reject failure rest' h =>
        ⟨#[], .reject failure rest' (Nat.le_succ_of_le h)⟩
      | .accept condition rest' h =>
        match statement rest' with
        | ⟨mended, .accept body rest'' h'⟩ =>
          ⟨mended, .accept (.whileLoop condition body) rest''
            (Nat.lt_trans h' (Nat.lt_succ_of_lt h))⟩
        | ⟨mended, .reject failure rest'' h'⟩ =>
          ⟨mended, .reject failure rest'' (by simp; omega)⟩
    | .leftBrace =>
      let members := sequence true #[] #[] rest (Nat.le_refl rest.length)
      ⟨members.failures,
        ((expect .rightBrace .blockClosing members.rest).map fun _ =>
          Stmt.block members.stmts.toList).weaken
            (Nat.le_succ_of_le members.notLonger)⟩
    | _ => .ofOutcome (simple (token :: rest))
termination_by tokens => (tokens.length, 0)

/-- The statement behind the head of a condition, and if `else` follows
it, the other one. -/
def branches (condition : Expr) (tokens : List Token) (bound : Nat)
    (shorter : tokens.length < bound) : Attempt bound :=
  match statement tokens with
  | ⟨mended, .reject failure rest h⟩ =>
    ⟨mended, .reject failure rest (by omega)⟩
  | ⟨mended, .accept thenPart [] h⟩ =>
    ⟨mended, .accept (.ifThen condition thenPart) [] (by omega)⟩
  | ⟨mended, .accept thenPart (token :: rest) h⟩ =>
    if token.kind = .elseWord then
      have hRest : rest.length < tokens.length := Nat.lt_of_succ_lt h
      match statement rest with
      | ⟨mended', .reject failure rest' h'⟩ =>
        ⟨mended ++ mended', .reject failure rest' (by omega)⟩
      | ⟨mended', .accept elsePart rest' h'⟩ =>
        ⟨mended ++ mended',
          .accept (.ifThenElse condition thenPart elsePart) rest'
            (by omega)⟩
    else
      ⟨mended, .accept (.ifThen condition thenPart) (token :: rest)
        (by omega)⟩
termination_by (tokens.length, 1)

/-- A declaration or a statement. -/
def declaration : (tokens : List Token) → Attempt tokens.length
  | [] => statement []
  | token :: rest =>
    match token.kind with
    | .long | .double =>
      .ofOutcome ((declarationRest token rest).weaken (Nat.le_succ _))
    | _ => statement (token :: rest)
termination_by tokens => (tokens.length, 1)

/-- Declarations and statements up to the end of the input or, inside a
block, up to a closing brace, behind the statements and failures that were
collected before. -/
def sequence {bound : Nat} (inBlock : Bool) (stmts : Array Stmt)
    (failures : Array Failure) (tokens : List Token)
    (notLonger : tokens.length ≤ bound) : Sequence bound :=
  match tokens with
  | [] => ⟨stmts, failures, [], notLonger⟩
  | token :: rest =>
    if inBlock && token.kind = .rightBrace then
      ⟨stmts, failures, token :: rest, notLonger⟩
    else
      match declaration (token :: rest) with
      | ⟨mended, .accept stmt rest' h⟩ =>
        sequence inBlock (stmts.push stmt) (failures ++ mended) rest'
          (Nat.le_trans (Nat.le_of_lt h) notLonger)
      | ⟨mended, .reject failure rest' h⟩ =>
        have hLess := length_recover_lt_of_le (Nat.succ_pos rest.length) h
        sequence inBlock stmts ((failures ++ mended).push failure)
          (recover rest') (Nat.le_trans (Nat.le_of_lt hLess) notLonger)
termination_by (tokens.length, 2)

end

/-! ## What is left -/

section Suffix

open Outcome (andThen_suffix)

theorem readRest_suffix (tokens : List Token) :
    (readRest tokens).rest <:+ tokens := by
  refine andThen_suffix (expect_suffix ..) fun _ tokens => ?_
  refine andThen_suffix (expect_suffix ..) fun _ tokens => ?_
  refine andThen_suffix (expect_suffix ..) fun _ tokens => ?_
  rw [Outcome.rest_map]
  exact expect_suffix ..

theorem writeRest_suffix (tokens : List Token) :
    (writeRest tokens).rest <:+ tokens := by
  refine andThen_suffix (expect_suffix ..) fun _ tokens => ?_
  refine andThen_suffix (expression_suffix tokens) fun _ tokens => ?_
  refine andThen_suffix (expect_suffix ..) fun _ tokens => ?_
  rw [Outcome.rest_map]
  exact expect_suffix ..

theorem ifHead_suffix (tokens : List Token) :
    (ifHead tokens).rest <:+ tokens := by
  refine andThen_suffix (expect_suffix ..) fun _ tokens => ?_
  refine andThen_suffix (expression_suffix tokens) fun _ tokens => ?_
  refine andThen_suffix (expect_suffix ..) fun _ tokens => ?_
  rw [Outcome.rest_map]
  exact expect_suffix ..

theorem whileHead_suffix (tokens : List Token) :
    (whileHead tokens).rest <:+ tokens := by
  refine andThen_suffix (expect_suffix ..) fun _ tokens => ?_
  refine andThen_suffix (expression_suffix tokens) fun _ tokens => ?_
  rw [Outcome.rest_map]
  exact expect_suffix ..

theorem expressionStatement_suffix (tokens : List Token) :
    (expressionStatement tokens).rest <:+ tokens := by
  refine andThen_suffix (expression_suffix tokens) fun _ tokens => ?_
  rw [Outcome.rest_map]
  exact expect_suffix ..

theorem assignmentRest_suffix (name operator : Token) (tokens : List Token) :
    (assignmentRest name operator tokens).rest <:+ tokens := by
  refine andThen_suffix (expression_suffix tokens) fun _ tokens => ?_
  rw [Outcome.rest_map]
  exact expect_suffix ..

theorem simple_suffix (tokens : List Token) :
    (simple tokens).rest <:+ tokens := by
  unfold simple
  split
  · next name operator rest =>
    split
    · rw [Outcome.rest_weaken]
      exact (assignmentRest_suffix name operator rest).trans
        ((List.suffix_cons operator rest).trans (List.suffix_cons name _))
    · exact expressionStatement_suffix _
  · exact expressionStatement_suffix _

theorem moreNames_suffix {bound : Nat} (names tokens : List Token)
    (shorter : tokens.length < bound) :
    (moreNames names tokens shorter).rest <:+ tokens := by
  fun_induction moreNames names tokens shorter with
  | case1 | case4 => exact List.suffix_rfl
  | case2 _ token rest _ _ _ _ _ hName _ ih =>
    have hRest := expect_suffix .identifier .anotherDeclarationName rest
    rw [hName] at hRest
    exact ih.trans (hRest.trans (List.suffix_cons token rest))
  | case3 _ token rest _ _ _ _ _ hName =>
    have hRest := expect_suffix .identifier .anotherDeclarationName rest
    rw [hName] at hRest
    exact hRest.trans (List.suffix_cons token rest)

theorem declarationRest_suffix (type : Token) (tokens : List Token) :
    (declarationRest type tokens).rest <:+ tokens := by
  have hName := expect_suffix .identifier .declarationName tokens
  unfold declarationRest
  split <;> rename_i h <;> rw [h] at hName
  · refine andThen_suffix ((moreNames_suffix ..).trans hName)
      fun _ tokens => ?_
    rw [Outcome.rest_map]
    exact expect_suffix ..
  · exact hName

mutual

theorem statement_suffix (tokens : List Token) :
    (statement tokens).outcome.rest <:+ tokens := by
  match tokens with
  | [] => rw [statement]; exact expressionStatement_suffix []
  | token :: rest =>
    have hCons := List.suffix_cons token rest
    rw [statement]
    split
    · rw [Attempt.ofOutcome, Outcome.rest_weaken]
      exact (readRest_suffix rest).trans hCons
    · rw [Attempt.ofOutcome, Outcome.rest_weaken]
      exact (writeRest_suffix rest).trans hCons
    · have hHead := ifHead_suffix rest
      split <;> rename_i h <;> rw [h] at hHead
      · exact hHead.trans hCons
      · exact (branches_suffix ..).trans (hHead.trans hCons)
    · have hHead := whileHead_suffix rest
      split
      · next h => rw [h] at hHead; exact hHead.trans hCons
      · next condition rest' _ h =>
        rw [h] at hHead
        have ih := statement_suffix rest'
        split <;> rename_i h' <;> rw [h'] at ih <;>
          exact ih.trans (hHead.trans hCons)
    · simp only [Outcome.rest_weaken, Outcome.rest_map]
      exact (expect_suffix ..).trans ((sequence_suffix ..).trans hCons)
    · exact simple_suffix _
termination_by (tokens.length, 0)

theorem branches_suffix (condition : Expr) (tokens : List Token)
    (bound : Nat) (shorter : tokens.length < bound) :
    (branches condition tokens bound shorter).outcome.rest <:+ tokens := by
  have ih := statement_suffix tokens
  rw [branches]
  split
  · next h => rw [h] at ih; exact ih
  · next h => rw [h] at ih; exact ih
  · next token rest hLess h =>
    rw [h] at ih
    split
    · have hRest : rest.length < tokens.length := Nat.lt_of_succ_lt hLess
      have hElse := statement_suffix rest
      have hCons := List.suffix_cons token rest
      split <;> rename_i h' <;> rw [h'] at hElse <;>
        exact hElse.trans (hCons.trans ih)
    · exact ih
termination_by (tokens.length, 1)

theorem declaration_suffix (tokens : List Token) :
    (declaration tokens).outcome.rest <:+ tokens := by
  match tokens with
  | [] => rw [declaration]; exact statement_suffix []
  | token :: rest =>
    have hCons := List.suffix_cons token rest
    rw [declaration]
    split
    · rw [Attempt.ofOutcome, Outcome.rest_weaken]
      exact (declarationRest_suffix token rest).trans hCons
    · rw [Attempt.ofOutcome, Outcome.rest_weaken]
      exact (declarationRest_suffix token rest).trans hCons
    · exact statement_suffix (token :: rest)
termination_by (tokens.length, 1)

theorem sequence_suffix {bound : Nat} (inBlock : Bool) (stmts : Array Stmt)
    (failures : Array Failure) (tokens : List Token)
    (notLonger : tokens.length ≤ bound) :
    (sequence inBlock stmts failures tokens notLonger).rest <:+ tokens := by
  match tokens with
  | [] => simp [sequence]
  | token :: rest =>
    have hStmt := declaration_suffix (token :: rest)
    rw [sequence]
    split
    · exact List.suffix_rfl
    · split
      · next h => rw [h] at hStmt; exact (sequence_suffix ..).trans hStmt
      · next _ _ rest' hLe h =>
        have hLess := length_recover_lt_of_le (Nat.succ_pos rest.length) hLe
        rw [h] at hStmt
        exact (sequence_suffix ..).trans ((recover_suffix rest').trans hStmt)
termination_by (tokens.length, 2)

end

end Suffix

/-! ## Sequences as equations

The loop collects onto what it is given. Seen from outside it is a
function of the tokens alone, and that function follows the tokens
statement by statement.
-/

/-- What was collected before stays in front, and changes nothing else. -/
theorem sequence_onto {bound : Nat} (inBlock : Bool) (stmts : Array Stmt)
    (failures : Array Failure) (tokens : List Token)
    (notLonger : tokens.length ≤ bound) :
    let whole := sequence inBlock stmts failures tokens notLonger
    let fresh := sequence inBlock #[] #[] tokens (Nat.le_refl _)
    whole.stmts = stmts ++ fresh.stmts ∧
      whole.failures = failures ++ fresh.failures ∧
      whole.rest = fresh.rest := by
  match tokens with
  | [] => simp [sequence]
  | token :: rest =>
    simp only [sequence]
    split
    · simp
    · rcases declaration (token :: rest) with ⟨mended, outcome⟩
      cases outcome with
      | accept stmt rest' h =>
        have ih := fun s f (b : Nat) (hb : rest'.length ≤ b) =>
          @sequence_onto b inBlock s f rest' hb
        dsimp only at ih ⊢
        simp only [ih (stmts.push stmt), ih (#[].push stmt)]
        simp
      | reject failure rest' h =>
        have hLess := length_recover_lt_of_le (Nat.succ_pos rest.length) h
        have ih := fun s f (b : Nat) (hb : (recover rest').length ≤ b) =>
          @sequence_onto b inBlock s f (recover rest') hb
        dsimp only at ih ⊢
        simp only [ih _ ((failures ++ mended).push failure),
          ih _ ((#[] ++ mended).push failure)]
        simp
termination_by tokens.length
decreasing_by all_goals assumption

/-- What a sequence comes to, as lists. -/
structure Members where
  stmts : List Stmt
  failures : List Failure
  rest : List Token

/-- The declarations and statements in front of some tokens. -/
def members (inBlock : Bool) (tokens : List Token) : Members :=
  let all := sequence inBlock #[] #[] tokens (Nat.le_refl _)
  ⟨all.stmts.toList, all.failures.toList, all.rest⟩

@[simp] theorem members_nil (inBlock : Bool) :
    members inBlock [] = ⟨[], [], []⟩ := by
  simp [members, sequence]

/-- A closing brace ends the members of a block and is left unread. -/
theorem members_closing {token : Token} (hKind : token.kind = .rightBrace)
    (rest : List Token) :
    members true (token :: rest) = ⟨[], [], token :: rest⟩ := by
  simp [members, sequence, hKind]

/-- A sound statement is followed by the members behind it. -/
theorem members_accept {inBlock : Bool} {token : Token} {rest rest' : List Token}
    {mended : Array Failure} {stmt : Stmt}
    {shorter : rest'.length < (token :: rest).length}
    (hOpen : inBlock = true → token.kind ≠ .rightBrace)
    (hStmt : declaration (token :: rest) =
      ⟨mended, .accept stmt rest' shorter⟩) :
    members inBlock (token :: rest) =
      ⟨stmt :: (members inBlock rest').stmts,
        mended.toList ++ (members inBlock rest').failures,
        (members inBlock rest').rest⟩ := by
  have hGoOn : ¬(inBlock && token.kind = .rightBrace) = true := by
    simpa using hOpen
  simp only [members, sequence, hStmt, if_neg hGoOn]
  simp only [sequence_onto inBlock (#[].push stmt) (#[] ++ mended) rest']
  simp

/-- A broken statement is left out, and the members go on where reading
recovers. -/
theorem members_reject {inBlock : Bool} {token : Token} {rest rest' : List Token}
    {mended : Array Failure} {failure : Failure}
    {notLonger : rest'.length ≤ (token :: rest).length}
    (hOpen : inBlock = true → token.kind ≠ .rightBrace)
    (hStmt : declaration (token :: rest) =
      ⟨mended, .reject failure rest' notLonger⟩) :
    members inBlock (token :: rest) =
      ⟨(members inBlock (recover rest')).stmts,
        mended.toList ++ failure ::
          (members inBlock (recover rest')).failures,
        (members inBlock (recover rest')).rest⟩ := by
  have hGoOn : ¬(inBlock && token.kind = .rightBrace) = true := by
    simpa using hOpen
  simp only [members, sequence, hStmt, if_neg hGoOn]
  simp only [sequence_onto inBlock #[] ((#[] ++ mended).push failure)
    (recover rest')]
  simp

end ImpFront.Grammar
