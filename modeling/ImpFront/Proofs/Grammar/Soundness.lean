import ImpFront.Proofs.Grammar.Derivation
import ImpFront.Proofs.Grammar.Verdict

/-!
# What verdicts say is so

A verdict on some tokens is *sound* for a kind of phrase if it says nothing
false about it. A clean value must have been read from a phrase that the
tokens begin with; and in front of a fault there must stand what some
phrase begins with, so that nothing that could still have been completed
is reported.

Soundness passes from rule to rule: what the second rule says counts for
whatever the first one has read. Each rule of the grammar is followed
here step by step, and the last step is the rule of derivation that it
implements.

## Main results

* `Sound.bind` — one rule behind another.
* `level_sound` — expressions.
* `statement_sound`, `members_sound` — statements and sequences.
-/

namespace ImpFront.Grammar

open Token (Kind)

/-! ## Sound verdicts -/

/-- The verdict is right about the phrases that `tokens` begins with. -/
def Verdict.Sound {α : Type} (Phrase : List Token → α → Prop)
    (tokens : List Token) : Verdict α → Prop
  | clean value rest => ∃ phrase, tokens = phrase ++ rest ∧ Phrase phrase value
  | broken failure => ∃ read, tokens = read ++ failure.found ∧
      ∃ more value, Phrase (read ++ more) value

namespace Verdict.Sound

variable {α β : Type} {First Phrase : List Token → α → Prop}
  {Whole : List Token → β → Prop} {tokens : List Token}

/-- A sound verdict shows at least that there are phrases. -/
theorem exists_phrase {verdict : Verdict α} (h : verdict.Sound Phrase tokens) :
    ∃ phrase value, Phrase phrase value := by
  cases verdict with
  | clean value rest =>
      obtain ⟨phrase, _, hPhrase⟩ := h
      exact ⟨phrase, value, hPhrase⟩
  | broken failure =>
      obtain ⟨read, _, more, value, hPhrase⟩ := h
      exact ⟨read ++ more, value, hPhrase⟩

/-- A rule behind another one: a phrase of the first is a beginning of the
whole, and the second rule completes it. -/
theorem bind {verdict : Verdict α} {next : α → List Token → Verdict β}
    (hFirst : verdict.Sound First tokens)
    (hNext : ∀ first value rest, tokens = first ++ rest → First first value →
      (next value rest).Sound (fun second => Whole (first ++ second)) rest)
    (hMore : ∀ first value, First first value →
      ∃ second result, Whole (first ++ second) result) :
    (verdict.bind next).Sound Whole tokens := by
  cases verdict with
  | clean value rest =>
      obtain ⟨first, hTokens, hPhrase⟩ := hFirst
      have hSecond := hNext first value rest hTokens hPhrase
      rw [Verdict.bind_clean]
      cases hVerdict : next value rest with
      | clean result rest' =>
          rw [hVerdict] at hSecond
          obtain ⟨second, hRest, hWhole⟩ := hSecond
          exact ⟨first ++ second, by rw [hTokens, hRest, List.append_assoc],
            hWhole⟩
      | broken failure =>
          rw [hVerdict] at hSecond
          obtain ⟨read, hRest, more, result, hWhole⟩ := hSecond
          exact ⟨first ++ read, by rw [hTokens, hRest, List.append_assoc],
            more, result, by rw [List.append_assoc]; exact hWhole⟩
  | broken failure =>
      obtain ⟨read, hTokens, more, value, hPhrase⟩ := hFirst
      obtain ⟨second, result, hWhole⟩ := hMore _ _ hPhrase
      exact ⟨read, hTokens, more ++ second, result,
        by rw [← List.append_assoc]; exact hWhole⟩

/-- The same where the second rule is known to be sound for all tokens. -/
theorem andThen {verdict : Verdict α} {next : α → List Token → Verdict β}
    (hFirst : verdict.Sound First tokens)
    (hNext : ∀ first value, First first value → ∀ rest,
      (next value rest).Sound (fun second => Whole (first ++ second)) rest) :
    (verdict.bind next).Sound Whole tokens :=
  hFirst.bind (fun first value rest _ hPhrase => hNext first value hPhrase rest)
    fun first value hPhrase => (hNext first value hPhrase []).exists_phrase

/-- Another value, and another kind of phrase with it. -/
theorem map {verdict : Verdict α} {f : α → β}
    (h : verdict.Sound Phrase tokens)
    (hWhole : ∀ phrase value, Phrase phrase value → Whole phrase (f value)) :
    (verdict.map f).Sound Whole tokens := by
  cases verdict with
  | clean value rest =>
      obtain ⟨phrase, hTokens, hPhrase⟩ := h
      exact ⟨phrase, hTokens, hWhole phrase value hPhrase⟩
  | broken failure =>
      obtain ⟨read, hTokens, more, value, hPhrase⟩ := h
      exact ⟨read, hTokens, more, f value, hWhole _ value hPhrase⟩

theorem mono {verdict : Verdict α} (h : verdict.Sound First tokens)
    (hWhole : ∀ phrase value, First phrase value → Phrase phrase value) :
    verdict.Sound Phrase tokens := by
  cases verdict with
  | clean value rest =>
      obtain ⟨phrase, hTokens, hPhrase⟩ := h
      exact ⟨phrase, hTokens, hWhole phrase value hPhrase⟩
  | broken failure =>
      obtain ⟨read, hTokens, more, value, hPhrase⟩ := h
      exact ⟨read, hTokens, more, value, hWhole _ value hPhrase⟩

/-- A token that has been read before belongs to the phrase. -/
theorem cons {verdict : Verdict α} (token : Token)
    (h : verdict.Sound (fun phrase => Phrase (token :: phrase)) tokens) :
    verdict.Sound Phrase (token :: tokens) := by
  cases verdict with
  | clean value rest =>
      obtain ⟨phrase, hTokens, hPhrase⟩ := h
      exact ⟨token :: phrase, by rw [hTokens]; rfl, hPhrase⟩
  | broken failure =>
      obtain ⟨read, hTokens, more, value, hPhrase⟩ := h
      exact ⟨token :: read, by rw [hTokens]; rfl, more, value, hPhrase⟩

/-- Nothing has been read, and some phrase would have been possible. -/
theorem broken_here {fault : SyntaxFault} {phrase : List Token} {value : α}
    (h : Phrase phrase value) :
    (Verdict.broken ⟨fault, tokens⟩).Sound Phrase tokens :=
  ⟨[], rfl, phrase, value, h⟩

end Verdict.Sound

open Verdict.Sound (broken_here)

/-! ## Tokens and expressions -/

/-- Some token of a kind. -/
def sample (kind : Kind) : Token := ⟨kind, "", .start⟩

theorem expect_sound (kind : Kind) (fault : SyntaxFault)
    (tokens : List Token) :
    (expect kind fault tokens).verdict.Sound
      (fun phrase token => phrase = [token] ∧ token.kind = kind) tokens := by
  have hSample : [sample kind] = [sample kind] ∧ (sample kind).kind = kind :=
    ⟨rfl, rfl⟩
  cases tokens with
  | nil => exact broken_here hSample
  | cons token rest =>
      by_cases h : token.kind = kind
      · rw [verdict_expect_of_eq h]
        exact ⟨[token], rfl, rfl, h⟩
      · rw [verdict_expect_of_ne h]
        exact broken_here hSample

theorem isExpr_sample (k : Nat) :
    IsExpr k [sample .identifier] (.var (sample .identifier)) := by
  induction k with
  | zero => exact .name rfl
  | succ k ih => exact .tighter ih

theorem denotes_of_constant? {token : Token} {value : Literal}
    (h : constant? token = some (.ok value)) : Denotes token value := by
  unfold constant? at h
  split at h
  · next hKind =>
    split at h
    · next n hRead => cases h; exact .integer hKind hRead
    · cases h
  · next hKind =>
    split at h
    · next x hRead => cases h; exact .real hKind hRead
    · cases h
  · next hKind => cases h; exact .string hKind
  · next hKind => cases h; exact .boolean hKind
  · cases h

theorem constant?_of_denotes {token : Token} {value : Literal}
    (h : Denotes token value) : constant? token = some (.ok value) := by
  cases h with
  | integer hKind hRead => simp [constant?, hKind, hRead]
  | real hKind hRead => simp [constant?, hKind, hRead]
  | string hKind => simp [constant?, hKind]
  | boolean hKind => simp [constant?, hKind]

theorem atom_sound (token : Token) (rest : List Token) :
    (atom (token :: rest)).verdict.Sound (IsExpr 0) (token :: rest) := by
  by_cases hName : token.kind = .identifier
  · rw [verdict_atom_name hName]
    exact ⟨[token], rfl, .name hName⟩
  · match h : constant? token with
    | some (.ok value) =>
        rw [verdict_atom_constant hName h]
        exact ⟨[token], rfl, .constant (denotes_of_constant? h)⟩
    | some (.error fault) =>
        rw [verdict_atom_unreadable hName h]
        exact broken_here (isExpr_sample 0)
    | none =>
        rw [verdict_atom_other hName h]
        exact broken_here (isExpr_sample 0)

/-- Behind a phrase that is not empty fewer tokens are left. -/
theorem length_lt_of_append {tokens first rest : List Token} {token : Token}
    (hTokens : tokens = token :: first ++ rest) :
    rest.length < tokens.length := by
  rw [hTokens, List.length_append, List.length_cons]
  omega

mutual

theorem level_sound (k : Nat) (tokens : List Token) :
    (level k tokens).verdict.Sound (IsExpr k) tokens := by
  match k, tokens with
  | 0, [] =>
      rw [verdict_level_nil]
      exact broken_here (isExpr_sample 0)
  | 0, token :: rest =>
      by_cases hUnary : token.kind.isUnary = true
      · rw [verdict_level_unary hUnary]
        exact ((level_sound 0 rest).map fun _ _ h => .unary hUnary h).cons token
      · by_cases hOpening : token.kind = .leftParen
        · rw [verdict_level_group hOpening]
          refine .cons token ((level_sound loosest rest).andThen ?_)
          intro tokens inner hInner rest'
          apply (expect_sound ..).map
          intro read closing hRead
          obtain ⟨rfl, hClosing⟩ := hRead
          exact .group hOpening hInner hClosing
        · rw [verdict_level_atom hUnary hOpening]
          exact atom_sound token rest
  | k + 1, tokens =>
      rw [verdict_level_succ]
      refine (level_sound k tokens).bind ?_ ?_
      · intro first left rest hTokens hLeft
        obtain ⟨token, first', rfl, _⟩ := hLeft.begins
        have hLess := length_lt_of_append hTokens
        exact chainVerdict_sound k left (.tighter hLeft) rest
      · intro first left hLeft
        exact ⟨[], left, by rw [List.append_nil]; exact .tighter hLeft⟩
termination_by (tokens.length, k)

/-- A chain goes on with the phrase that was read before it. -/
theorem chainVerdict_sound (k : Nat) (left : Expr) {first : List Token}
    (hLeft : IsExpr (k + 1) first left) (tokens : List Token) :
    (chainVerdict k left tokens).Sound
      (fun second => IsExpr (k + 1) (first ++ second)) tokens := by
  have hNothing : IsExpr (k + 1) (first ++ []) left := by
    rw [List.append_nil]
    exact hLeft
  match tokens with
  | [] =>
      rw [chainVerdict_nil]
      exact ⟨[], rfl, hNothing⟩
  | token :: rest =>
      by_cases hOperator : token.kind.looseness? = some (k + 1)
      · rw [chainVerdict_operator left hOperator]
        refine .cons token ((level_sound k rest).bind ?_ ?_)
        · intro second right rest' hRest hRight
          have hLess : rest'.length < (token :: rest).length :=
            length_lt_of_append (by rw [hRest]; rfl)
          have hBinary := IsExpr.binary hLeft hOperator hRight
          apply (chainVerdict_sound k _ hBinary rest').mono
          intro third expr h
          simpa using h
        · intro second right hRight
          exact ⟨[], _, by simpa using IsExpr.binary hLeft hOperator hRight⟩
      · rw [chainVerdict_stop left hOperator]
        exact ⟨[], rfl, hNothing⟩
termination_by (tokens.length, 0)

end

theorem expression_sound (tokens : List Token) :
    (expression tokens).verdict.Sound (IsExpr loosest) tokens :=
  level_sound loosest tokens

/-! ## Statements -/

/-- The shortest statement: a name, and a semicolon. -/
theorem isStmt_sample :
    IsStmt [sample .identifier, sample .semicolon]
      (.expression (.var (sample .identifier))) :=
  .expression (isExpr_sample loosest) rfl

theorem readRest_sound {word : Token} (hWord : word.kind = .read)
    (tokens : List Token) :
    (readRest tokens).verdict.Sound
      (fun phrase => IsStmt (word :: phrase)) tokens := by
  simp only [readRest, verdict_andThen, verdict_map]
  refine (expect_sound ..).andThen ?_
  intro read opening hRead rest
  obtain ⟨rfl, hOpening⟩ := hRead
  refine (expect_sound ..).andThen ?_
  intro read name hRead rest
  obtain ⟨rfl, hName⟩ := hRead
  refine (expect_sound ..).andThen ?_
  intro read closing hRead rest
  obtain ⟨rfl, hClosing⟩ := hRead
  apply (expect_sound ..).map
  intro read semicolon hRead
  obtain ⟨rfl, hEnd⟩ := hRead
  exact .read hWord hOpening hName hClosing hEnd

theorem writeRest_sound {word : Token} (hWord : word.kind = .write)
    (tokens : List Token) :
    (writeRest tokens).verdict.Sound
      (fun phrase => IsStmt (word :: phrase)) tokens := by
  simp only [writeRest, verdict_andThen, verdict_map]
  refine (expect_sound ..).andThen ?_
  intro read opening hRead rest
  obtain ⟨rfl, hOpening⟩ := hRead
  refine (expression_sound rest).andThen ?_
  intro tokens value hValue rest
  refine (expect_sound ..).andThen ?_
  intro read closing hRead rest
  obtain ⟨rfl, hClosing⟩ := hRead
  apply (expect_sound ..).map
  intro read semicolon hRead
  obtain ⟨rfl, hEnd⟩ := hRead
  simpa using IsStmt.write hWord hOpening hValue hClosing hEnd

/-- A condition in parentheses. -/
inductive IsCondition : List Token → Expr → Prop
  | mk {opening closing : Token} {tokens : List Token} {condition : Expr}
      (hOpening : opening.kind = .leftParen)
      (hCondition : IsExpr loosest tokens condition)
      (hClosing : closing.kind = .rightParen) :
      IsCondition (opening :: (tokens ++ [closing])) condition

/-- A condition in parentheses, and `then`. -/
inductive IsIfHead : List Token → Expr → Prop
  | mk {thenWord : Token} {tokens : List Token} {condition : Expr}
      (hCondition : IsCondition tokens condition)
      (hThen : thenWord.kind = .thenWord) :
      IsIfHead (tokens ++ [thenWord]) condition

theorem whileHead_sound (tokens : List Token) :
    (whileHead tokens).verdict.Sound IsCondition tokens := by
  simp only [whileHead, verdict_andThen, verdict_map]
  refine (expect_sound ..).andThen ?_
  intro read opening hRead rest
  obtain ⟨rfl, hOpening⟩ := hRead
  refine (expression_sound rest).andThen ?_
  intro tokens condition hCondition rest
  apply (expect_sound ..).map
  intro read closing hRead
  obtain ⟨rfl, hClosing⟩ := hRead
  exact .mk hOpening hCondition hClosing

theorem ifHead_sound (tokens : List Token) :
    (ifHead tokens).verdict.Sound IsIfHead tokens := by
  simp only [ifHead, verdict_andThen, verdict_map]
  refine (expect_sound ..).andThen ?_
  intro read opening hRead rest
  obtain ⟨rfl, hOpening⟩ := hRead
  refine (expression_sound rest).andThen ?_
  intro tokens condition hCondition rest
  refine (expect_sound ..).andThen ?_
  intro read closing hRead rest
  obtain ⟨rfl, hClosing⟩ := hRead
  apply (expect_sound ..).map
  intro read thenWord hRead
  obtain ⟨rfl, hThen⟩ := hRead
  simpa using IsIfHead.mk (.mk hOpening hCondition hClosing) hThen

theorem IsStmt.ofIfHead {word : Token} {head first : List Token}
    {condition : Expr} {thenPart : Stmt} (hWord : word.kind = .ifWord)
    (hHead : IsIfHead head condition) (hFirst : IsStmt first thenPart) :
    IsStmt (word :: (head ++ first)) (.ifThen condition thenPart) := by
  obtain ⟨⟨hOpening, hCondition, hClosing⟩, hThen⟩ := hHead
  simpa using IsStmt.ifThen hWord hOpening hCondition hClosing hThen hFirst

theorem IsStmt.ofIfHeadElse {word elseWord : Token}
    {head first second : List Token} {condition : Expr}
    {thenPart elsePart : Stmt} (hWord : word.kind = .ifWord)
    (hHead : IsIfHead head condition) (hFirst : IsStmt first thenPart)
    (hElse : elseWord.kind = .elseWord) (hSecond : IsStmt second elsePart) :
    IsStmt (word :: (head ++ (first ++ elseWord :: second)))
      (.ifThenElse condition thenPart elsePart) := by
  obtain ⟨⟨hOpening, hCondition, hClosing⟩, hThen⟩ := hHead
  simpa using IsStmt.ifThenElse hWord hOpening hCondition hClosing hThen
    hFirst hElse hSecond

theorem IsStmt.ofCondition {word : Token} {head inside : List Token}
    {condition : Expr} {body : Stmt} (hWord : word.kind = .whileWord)
    (hHead : IsCondition head condition) (hBody : IsStmt inside body) :
    IsStmt (word :: (head ++ inside)) (.whileLoop condition body) := by
  obtain ⟨hOpening, hCondition, hClosing⟩ := hHead
  simpa using IsStmt.whileLoop hWord hOpening hCondition hClosing hBody

theorem expressionStatement_sound (tokens : List Token) :
    (expressionStatement tokens).verdict.Sound IsStmt tokens := by
  simp only [expressionStatement, verdict_andThen, verdict_map]
  refine (expression_sound tokens).andThen ?_
  intro tokens value hValue rest
  apply (expect_sound ..).map
  intro read semicolon hRead
  obtain ⟨rfl, hEnd⟩ := hRead
  exact .expression hValue hEnd

theorem assignmentRest_sound {name operator : Token}
    (hName : name.kind = .identifier)
    (hOperator : operator.kind.isAssignment = true) (tokens : List Token) :
    (assignmentRest name operator tokens).verdict.Sound
      (fun phrase => IsStmt (name :: operator :: phrase)) tokens := by
  simp only [assignmentRest, verdict_andThen, verdict_map]
  refine (expression_sound tokens).andThen ?_
  intro tokens value hValue rest
  apply (expect_sound ..).map
  intro read semicolon hRead
  obtain ⟨rfl, hEnd⟩ := hRead
  exact .assign hName hOperator hValue hEnd

theorem simple_sound (tokens : List Token) :
    (simple tokens).verdict.Sound IsStmt tokens := by
  unfold simple
  split
  · next name operator rest =>
    split
    · next h =>
      have hBoth : name.kind = .identifier ∧
          operator.kind.isAssignment = true := by simpa using h
      rw [verdict_weaken]
      exact ((assignmentRest_sound hBoth.1 hBoth.2 rest).cons
        operator).cons name
    · exact expressionStatement_sound _
  · exact expressionStatement_sound _

theorem namesVerdict_sound (names tokens : List Token) :
    (namesVerdict names tokens).Sound
      (fun phrase all => ∃ more, IsNames phrase more ∧
        all = names.reverse ++ more) tokens := by
  match tokens with
  | [] =>
      rw [namesVerdict_nil]
      exact ⟨[], rfl, [], .nil, by simp⟩
  | token :: rest =>
      by_cases hComma : token.kind = .comma
      · rw [namesVerdict_comma names hComma]
        refine .cons token ((expect_sound ..).bind ?_ ?_)
        · intro read name rest' hRest hRead
          obtain ⟨rfl, hName⟩ := hRead
          have hLess : rest'.length < (token :: rest).length :=
            length_lt_of_append (by rw [hRest]; rfl)
          apply (namesVerdict_sound (name :: names) rest').mono
          rintro phrase _ ⟨more, hMore, rfl⟩
          exact ⟨name :: more, .cons hComma hName hMore, by simp⟩
        · intro read name hRead
          obtain ⟨rfl, hName⟩ := hRead
          exact ⟨[], _, [name], .cons hComma hName .nil, rfl⟩
      · rw [namesVerdict_stop names hComma]
        exact ⟨[], rfl, [], .nil, by simp⟩
termination_by tokens.length

theorem isDecl_declareAll {type name semicolon : Token}
    {tokens names : List Token}
    (hType : type.kind = .long ∨ type.kind = .double)
    (hName : name.kind = .identifier) (hMore : IsNames tokens names)
    (hEnd : semicolon.kind = .semicolon) :
    IsDecl (type :: name :: (tokens ++ [semicolon]))
      (declareAll type (name :: names)) := by
  cases hMore with
  | nil => exact .one hType hName hEnd
  | cons hComma hSecond hMore =>
      exact .several hType hName (.cons hComma hSecond hMore)
        (List.cons_ne_nil _ _) hEnd

theorem declarationRest_sound {type : Token}
    (hType : type.kind = .long ∨ type.kind = .double) (tokens : List Token) :
    (declarationRest type tokens).verdict.Sound
      (fun phrase => IsDecl (type :: phrase)) tokens := by
  rw [verdict_declarationRest]
  refine (expect_sound ..).andThen ?_
  intro read name hRead rest
  obtain ⟨rfl, hName⟩ := hRead
  refine (namesVerdict_sound [name] rest).andThen ?_
  rintro tokens _ ⟨names, hMore, rfl⟩ rest
  apply (expect_sound ..).map
  intro read semicolon hRead
  obtain ⟨rfl, hEnd⟩ := hRead
  exact isDecl_declareAll hType hName hMore hEnd

mutual

theorem statement_sound (tokens : List Token) :
    (statement tokens).verdict.Sound IsStmt tokens := by
  match tokens with
  | [] =>
      rw [verdict_statement_nil]
      exact broken_here isStmt_sample
  | token :: rest =>
      by_cases hRead : token.kind = .read
      · rw [verdict_statement_read hRead]
        exact (readRest_sound hRead rest).cons token
      by_cases hWrite : token.kind = .write
      · rw [verdict_statement_write hWrite]
        exact (writeRest_sound hWrite rest).cons token
      by_cases hIf : token.kind = .ifWord
      · rw [verdict_statement_if hIf]
        refine .cons token ((ifHead_sound rest).bind ?_ ?_)
        · intro head condition rest' hRest hHead
          have hLess : rest'.length < (token :: rest).length :=
            length_lt_of_append (by rw [hRest]; rfl)
          exact branchesVerdict_sound hIf hHead rest'
        · intro head condition hHead
          exact ⟨_, _, .ofIfHead hIf hHead isStmt_sample⟩
      by_cases hWhile : token.kind = .whileWord
      · rw [verdict_statement_while hWhile]
        refine .cons token ((whileHead_sound rest).bind ?_ ?_)
        · intro head condition rest' hRest hHead
          have hLess : rest'.length < (token :: rest).length :=
            length_lt_of_append (by rw [hRest]; rfl)
          exact (statement_sound rest').map fun _ _ hBody =>
            .ofCondition hWhile hHead hBody
        · intro head condition hHead
          exact ⟨_, _, .ofCondition hWhile hHead isStmt_sample⟩
      by_cases hBlock : token.kind = .leftBrace
      · rw [verdict_statement_block hBlock]
        refine .cons token ((members_sound true rest).andThen ?_)
        intro tokens stmts hMembers rest'
        apply (expect_sound ..).map
        intro read closing hRead
        obtain ⟨rfl, hClosing⟩ := hRead
        exact .block hBlock hMembers hClosing
      rw [verdict_statement_simple hRead hWrite hIf hWhile hBlock]
      exact simple_sound (token :: rest)
termination_by (tokens.length, 0)

theorem branchesVerdict_sound {word : Token} {head : List Token}
    {condition : Expr} (hWord : word.kind = .ifWord)
    (hHead : IsIfHead head condition) (tokens : List Token) :
    (branchesVerdict condition tokens).Sound
      (fun phrase => IsStmt (word :: (head ++ phrase))) tokens := by
  refine (statement_sound tokens).bind ?_ ?_
  · intro first thenPart rest hTokens hFirst
    have hThen : IsStmt (word :: (head ++ (first ++ [])))
        (.ifThen condition thenPart) := by
      rw [List.append_nil]
      exact .ofIfHead hWord hHead hFirst
    match rest with
    | [] => exact ⟨[], rfl, hThen⟩
    | token :: rest' =>
        by_cases hElse : token.kind = .elseWord
        · have hLess : rest'.length < tokens.length := by
            rw [hTokens, List.length_append, List.length_cons]
            omega
          simp only [if_pos hElse]
          exact ((statement_sound rest').map fun _ _ hSecond =>
            .ofIfHeadElse hWord hHead hFirst hElse hSecond).cons token
        · simp only [if_neg hElse]
          exact ⟨[], rfl, hThen⟩
  · intro first thenPart hFirst
    exact ⟨[], _, by rw [List.append_nil]; exact .ofIfHead hWord hHead hFirst⟩
termination_by (tokens.length, 1)

theorem declaration_sound (token : Token) (rest : List Token) :
    (declaration (token :: rest)).verdict.Sound IsDecl (token :: rest) := by
  by_cases hType : token.kind = .long ∨ token.kind = .double
  · rw [verdict_declaration_type hType]
    exact (declarationRest_sound hType rest).cons token
  · rw [verdict_declaration_statement (fun h => hType (.inl h))
      (fun h => hType (.inr h))]
    exact (statement_sound (token :: rest)).mono fun _ _ h => .statement h
termination_by (rest.length + 1, 1)

theorem members_sound (inBlock : Bool) (tokens : List Token) :
    (members inBlock tokens).verdict.Sound IsProgram tokens := by
  match tokens with
  | [] =>
      rw [verdict_members_nil]
      exact ⟨[], rfl, .nil⟩
  | token :: rest =>
      by_cases hOpen : inBlock = true → token.kind ≠ .rightBrace
      · rw [verdict_members_cons hOpen]
        refine (declaration_sound token rest).bind ?_ ?_
        · intro first stmt rest' hTokens hFirst
          obtain ⟨_, _, rfl, _⟩ := hFirst.begins
          have hLess := length_lt_of_append hTokens
          exact (members_sound inBlock rest').map fun _ _ hRest =>
            .cons hFirst hRest
        · intro first stmt hFirst
          exact ⟨[], [stmt], .cons hFirst .nil⟩
      · obtain ⟨hIn, hKind⟩ := Classical.not_imp.1 hOpen
        rw [hIn, verdict_members_closing (Classical.not_not.1 hKind)]
        exact ⟨[], rfl, .nil⟩
termination_by (tokens.length, 2)

end

end ImpFront.Grammar
