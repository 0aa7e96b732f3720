import ImpFront.Proofs.Grammar.Acceptance

/-!
# What is kept of a broken program

The rules of derivation say nothing about programs that are broken, but
what is kept of those is not arbitrary. A statement that is kept was read
from a phrase of its form; only between the braces of a block, and between
the statements of a program, tokens may have been passed over. These are
the rules of derivation once more, with gaps: `KeepsStmt tokens stmt` says
that the statement is kept of the tokens. There can be gaps wherever there
are members of a sequence, and nowhere else; in particular heads,
expressions and declarations are whole.

Facts about everything that is ever kept, from broken programs or sound
ones, are facts about these rules.

## Main results

* `statement_keeps`, `members_keeps` — what is read is kept of the tokens
  in front of what is left.
* `keepsAll_stmts` — the statements of a program are kept of its tokens.
-/

namespace ImpFront

/-- Is the statement of a form that holds no other statements? -/
def Stmt.isPlain : Stmt → Bool
  | expression _ | assign .. | read _ | write _ => true
  | _ => false

namespace Grammar

/-! ## Rules with gaps -/

mutual

/-- Declarations and statements, with gaps between the members of
blocks. -/
inductive KeepsDecl : List Token → Stmt → Prop
  | names {type name semicolon : Token} {tokens names : List Token}
      (hType : type.kind = .long ∨ type.kind = .double)
      (hName : name.kind = .identifier) (hMore : IsNames tokens names)
      (hEnd : semicolon.kind = .semicolon) :
      KeepsDecl (type :: name :: (tokens ++ [semicolon]))
        (declareAll type (name :: names))
  | statement {tokens : List Token} {stmt : Stmt}
      (hStmt : KeepsStmt tokens stmt) : KeepsDecl tokens stmt

/-- Statements, with gaps between the members of blocks. -/
inductive KeepsStmt : List Token → Stmt → Prop
  | plain {tokens : List Token} {stmt : Stmt} (hStmt : IsStmt tokens stmt)
      (hPlain : stmt.isPlain = true) : KeepsStmt tokens stmt
  | ifThen {word : Token} {head first : List Token} {condition : Expr}
      {thenPart : Stmt} (hWord : word.kind = .ifWord)
      (hHead : IsIfHead head condition) (hFirst : KeepsStmt first thenPart) :
      KeepsStmt (word :: (head ++ first)) (.ifThen condition thenPart)
  | ifThenElse {word elseWord : Token} {head first second : List Token}
      {condition : Expr} {thenPart elsePart : Stmt}
      (hWord : word.kind = .ifWord) (hHead : IsIfHead head condition)
      (hFirst : KeepsStmt first thenPart) (hElse : elseWord.kind = .elseWord)
      (hSecond : KeepsStmt second elsePart) :
      KeepsStmt (word :: (head ++ (first ++ elseWord :: second)))
        (.ifThenElse condition thenPart elsePart)
  | whileLoop {word : Token} {head inside : List Token} {condition : Expr}
      {body : Stmt} (hWord : word.kind = .whileWord)
      (hHead : IsCondition head condition) (hBody : KeepsStmt inside body) :
      KeepsStmt (word :: (head ++ inside)) (.whileLoop condition body)
  | block {opening closing : Token} {tokens : List Token}
      {stmts : List Stmt} (hOpening : opening.kind = .leftBrace)
      (hMembers : KeepsAll tokens stmts)
      (hClosing : closing.kind = .rightBrace) :
      KeepsStmt (opening :: (tokens ++ [closing])) (.block stmts)

/-- Declarations and statements one after another, with gaps between
them. -/
inductive KeepsAll : List Token → List Stmt → Prop
  | nil : KeepsAll [] []
  | skip {token : Token} {tokens : List Token} {stmts : List Stmt}
      (hRest : KeepsAll tokens stmts) : KeepsAll (token :: tokens) stmts
  | cons {first rest : List Token} {stmt : Stmt} {stmts : List Stmt}
      (hFirst : KeepsDecl first stmt) (hRest : KeepsAll rest stmts) :
      KeepsAll (first ++ rest) (stmt :: stmts)

end

/-- Any number of tokens may be passed over. -/
theorem KeepsAll.append_left {tokens : List Token} {stmts : List Stmt}
    (h : KeepsAll tokens stmts) (passed : List Token) :
    KeepsAll (passed ++ tokens) stmts := by
  induction passed with
  | nil => exact h
  | cons token passed ih => exact .skip ih

/-- The word in front tells whether a statement holds others. -/
theorem IsStmt.isPlain {tokens : List Token} {stmt : Stmt}
    (h : IsStmt tokens stmt)
    (hFront : ∀ token ∈ tokens.head?, token.kind ≠ .ifWord ∧
      token.kind ≠ .whileWord ∧ token.kind ≠ .leftBrace) :
    stmt.isPlain = true := by
  cases h with
  | read => rfl
  | write => rfl
  | assign => rfl
  | expression => rfl
  | ifThen hWord => exact absurd hWord (hFront _ rfl).1
  | ifThenElse hWord => exact absurd hWord (hFront _ rfl).1
  | whileLoop hWord => exact absurd hWord (hFront _ rfl).2.1
  | block hOpening => exact absurd hOpening (hFront _ rfl).2.2

/-- Behind the word of a type a declaration is one of names. -/
theorem IsDecl.keepsDecl_of_type {type : Token} {tokens : List Token}
    {stmt : Stmt} (h : IsDecl (type :: tokens) stmt)
    (hType : type.kind = .long ∨ type.kind = .double) :
    KeepsDecl (type :: tokens) stmt := by
  cases h with
  | one _ hName hEnd => exact .names hType hName .nil hEnd
  | several _ hName hMore hSeveral hEnd =>
      cases hMore with
      | nil => exact absurd rfl hSeveral
      | cons hComma hSecond hMore =>
          exact .names hType hName (.cons hComma hSecond hMore) hEnd
  | statement hStmt =>
      obtain ⟨token, rest, hTokens, hBegins⟩ := hStmt.begins
      obtain ⟨rfl, _⟩ := List.cons.inj hTokens
      rcases hType with hType | hType <;> rw [hType] at hBegins <;>
        cases hBegins

/-! ## Readings of phrases -/

/-- If the rule accepts, then it has read a phrase of its value. -/
def Reading.Keeps {α : Type} (Phrase : List Token → α → Prop)
    (tokens : List Token) : Reading α → Prop
  | accept _ value rest => ∃ phrase, tokens = phrase ++ rest ∧ Phrase phrase value
  | reject _ _ _ => True

namespace Reading.Keeps

variable {α β : Type} {First Phrase : List Token → α → Prop}
  {Whole : List Token → β → Prop} {tokens : List Token}

theorem after {reading : Reading α} (h : reading.Keeps Phrase tokens)
    (failures : List Failure) : (reading.after failures).Keeps Phrase tokens := by
  cases reading <;> exact h

/-- A rule behind another one. -/
theorem bind {reading : Reading α} {next : α → List Token → Reading β}
    (hFirst : reading.Keeps First tokens)
    (hNext : ∀ first value rest, tokens = first ++ rest → First first value →
      (next value rest).Keeps (fun second => Whole (first ++ second)) rest) :
    (reading.bind next).Keeps Whole tokens := by
  cases reading with
  | reject mended failure rest => trivial
  | accept mended value rest =>
      obtain ⟨first, hTokens, hPhrase⟩ := hFirst
      have hSecond := hNext first value rest hTokens hPhrase
      apply after
      cases hReading : next value rest with
      | reject mended' failure rest' => trivial
      | accept mended' result rest' =>
          rw [hReading] at hSecond
          obtain ⟨second, hRest, hWhole⟩ := hSecond
          exact ⟨first ++ second, by rw [hTokens, hRest, List.append_assoc],
            hWhole⟩

/-- Another value, and another kind of phrase with it. -/
theorem map {reading : Reading α} {f : α → β}
    (h : reading.Keeps Phrase tokens)
    (hWhole : ∀ phrase value, Phrase phrase value → Whole phrase (f value)) :
    (reading.map f).Keeps Whole tokens := by
  apply h.bind
  intro phrase value rest _ hPhrase
  have hValue : Whole (phrase ++ []) (f value) := by
    rw [List.append_nil]
    exact hWhole phrase value hPhrase
  exact ⟨[], rfl, hValue⟩

/-- What is known of the tokens may be used for the phrase. -/
theorem mono {reading : Reading α} (h : reading.Keeps First tokens)
    (hPhrase : ∀ phrase value rest, tokens = phrase ++ rest →
      First phrase value → Phrase phrase value) :
    reading.Keeps Phrase tokens := by
  cases reading with
  | reject mended failure rest => trivial
  | accept mended value rest =>
      obtain ⟨phrase, hTokens, hFirst⟩ := h
      exact ⟨phrase, hTokens, hPhrase phrase value rest hTokens hFirst⟩

/-- Tokens that were read before belong to the phrase. -/
theorem append {reading : Reading α} (before : List Token)
    (h : reading.Keeps (fun phrase => Phrase (before ++ phrase)) tokens) :
    reading.Keeps Phrase (before ++ tokens) := by
  cases reading with
  | reject mended failure rest => trivial
  | accept mended value rest =>
      obtain ⟨phrase, hTokens, hPhrase⟩ := h
      exact ⟨before ++ phrase, by rw [hTokens, List.append_assoc], hPhrase⟩

theorem cons {reading : Reading α} (token : Token)
    (h : reading.Keeps (fun phrase => Phrase (token :: phrase)) tokens) :
    reading.Keeps Phrase (token :: tokens) :=
  append [token] h

/-- Reading goes on in any case, behind what was read or passed over. -/
theorem mend {reading : Reading α} {accepted : α → List Token → Reading β}
    {rejected : List Token → Reading β}
    (hAccepted : ∀ mended value rest, reading = .accept mended value rest →
      (accepted value rest).Keeps Whole tokens)
    (hRejected : ∀ mended failure rest, reading = .reject mended failure rest →
      (rejected rest).Keeps Whole tokens) :
    (reading.mend accepted rejected).Keeps Whole tokens := by
  cases reading with
  | accept mended value rest => exact (hAccepted mended value rest rfl).after _
  | reject mended failure rest =>
      exact (hRejected mended failure rest rfl).after _

/-- A rule that mends nothing reads what its verdict says. -/
theorem of_sound {bound : Nat} {outcome : Outcome α bound}
    (h : outcome.verdict.Sound Phrase tokens) :
    outcome.reading.Keeps Phrase tokens := by
  cases outcome with
  | accept value rest hLess => exact h
  | reject failure rest hLe => trivial

end Reading.Keeps

open Reading.Keeps (of_sound)

/-! ## What is read is kept -/

@[simp] theorem rest_readingAttempt {bound : Nat} (attempt : Attempt bound) :
    attempt.reading.rest = attempt.outcome.rest := by
  rcases attempt with ⟨mended, outcome⟩
  cases outcome <;> rfl

/-- Statements that hold no others are read by rules that mend nothing. -/
theorem exists_outcome_statement {token : Token}
    (hIf : token.kind ≠ .ifWord) (hWhile : token.kind ≠ .whileWord)
    (hBlock : token.kind ≠ .leftBrace) (rest : List Token) :
    ∃ (bound : Nat) (outcome : Outcome Stmt bound),
      (statement (token :: rest)).reading = outcome.reading := by
  by_cases hRead : token.kind = .read
  · exact ⟨_, _, reading_statement_read hRead⟩
  by_cases hWrite : token.kind = .write
  · exact ⟨_, _, reading_statement_write hWrite⟩
  exact ⟨_, _, reading_statement_simple hRead hWrite hIf hWhile hBlock⟩

theorem statement_keeps_plain {token : Token}
    (hIf : token.kind ≠ .ifWord) (hWhile : token.kind ≠ .whileWord)
    (hBlock : token.kind ≠ .leftBrace) (rest : List Token) :
    (statement (token :: rest)).reading.Keeps KeepsStmt (token :: rest) := by
  obtain ⟨bound, outcome, hReading⟩ :=
    exists_outcome_statement hIf hWhile hBlock rest
  have hSound := statement_sound (token :: rest)
  rw [← verdict_readingAttempt, hReading] at hSound
  rw [hReading]
  refine (of_sound hSound).mono ?_
  intro phrase stmt rest' hTokens hStmt
  refine .plain hStmt (hStmt.isPlain ?_)
  intro front hFront
  obtain rfl : token = front := by
    cases phrase with
    | nil => cases hFront
    | cons first phrase =>
        obtain ⟨rfl, _⟩ := List.cons.inj hTokens
        exact Option.some.inj hFront
  exact ⟨hIf, hWhile, hBlock⟩

mutual

theorem statement_keeps (tokens : List Token) :
    (statement tokens).reading.Keeps KeepsStmt tokens := by
  match tokens with
  | [] =>
      rw [reading_statement_nil]
      trivial
  | token :: rest =>
      by_cases hIf : token.kind = .ifWord
      · rw [reading_statement_if hIf]
        refine .cons token ((of_sound (ifHead_sound rest)).bind ?_)
        intro head condition rest' hRest hHead
        have hLess : rest'.length < (token :: rest).length :=
          length_lt_of_append (by rw [hRest]; rfl)
        exact branchesReading_keeps hIf hHead rest'
      by_cases hWhile : token.kind = .whileWord
      · rw [reading_statement_while hWhile]
        refine .cons token ((of_sound (whileHead_sound rest)).bind ?_)
        intro head condition rest' hRest hHead
        have hLess : rest'.length < (token :: rest).length :=
          length_lt_of_append (by rw [hRest]; rfl)
        exact (statement_keeps rest').map fun _ _ hBody =>
          .whileLoop hWhile hHead hBody
      by_cases hBlock : token.kind = .leftBrace
      · rw [reading_statement_block hBlock]
        refine .cons token ((members_keeps true rest).bind ?_)
        intro tokens stmts rest' _ hMembers
        refine (of_sound (expect_sound ..)).map ?_
        rintro _ closing ⟨rfl, hClosing⟩
        exact .block hBlock hMembers hClosing
      exact statement_keeps_plain hIf hWhile hBlock rest
termination_by (tokens.length, 0)

theorem branchesReading_keeps {word : Token} {head : List Token}
    {condition : Expr} (hWord : word.kind = .ifWord)
    (hHead : IsIfHead head condition) (tokens : List Token) :
    (branchesReading condition tokens).Keeps
      (fun phrase => KeepsStmt (word :: (head ++ phrase))) tokens := by
  refine (statement_keeps tokens).bind ?_
  intro first thenPart rest hTokens hFirst
  have hThen : KeepsStmt (word :: (head ++ (first ++ [])))
      (.ifThen condition thenPart) := by
    rw [List.append_nil]
    exact .ifThen hWord hHead hFirst
  match rest with
  | [] => exact ⟨[], rfl, hThen⟩
  | token :: rest' =>
      rw [elseReading]
      split
      · next hElse =>
        have hLess : rest'.length < tokens.length := by
          rw [hTokens, List.length_append, List.length_cons]
          omega
        exact ((statement_keeps rest').map fun _ _ hSecond =>
          .ifThenElse hWord hHead hFirst hElse hSecond).cons token
      · exact ⟨[], rfl, hThen⟩
termination_by (tokens.length, 1)

theorem declaration_keeps (token : Token) (rest : List Token) :
    (declaration (token :: rest)).reading.Keeps KeepsDecl (token :: rest) := by
  by_cases hType : token.kind = .long ∨ token.kind = .double
  · rw [reading_declaration_type hType]
    refine .cons token ((of_sound (declarationRest_sound hType rest)).mono ?_)
    intro phrase stmt _ _ hDecl
    exact hDecl.keepsDecl_of_type hType
  · rw [reading_declaration_statement (fun h => hType (.inl h))
      (fun h => hType (.inr h))]
    exact (statement_keeps (token :: rest)).mono fun _ _ _ _ h => .statement h
termination_by (rest.length + 1, 1)

theorem members_keeps (inBlock : Bool) (tokens : List Token) :
    (members inBlock tokens).reading.Keeps KeepsAll tokens := by
  match tokens with
  | [] =>
      rw [reading_members_nil]
      exact ⟨[], rfl, .nil⟩
  | token :: rest =>
      by_cases hOpen : inBlock = true → token.kind ≠ .rightBrace
      · rw [reading_members_cons hOpen]
        refine .mend ?_ ?_
        · intro mended stmt rest' hReading
          have hFirst := declaration_keeps token rest
          rw [hReading] at hFirst
          obtain ⟨first, hTokens, hDecl⟩ := hFirst
          have hLess : rest'.length < (token :: rest).length :=
            Attempt.length_lt_of_reading hReading
          rw [hTokens]
          exact .append first ((members_keeps inBlock rest').map
            fun _ _ hRest => .cons hDecl hRest)
        · intro mended failure rest' hReading
          have hSuffix := declaration_suffix (token :: rest)
          rw [← rest_readingAttempt, hReading] at hSuffix
          have hLess : (recover rest').length < (token :: rest).length :=
            length_recover_lt_of_le (Nat.succ_pos _) hSuffix.length_le
          obtain ⟨passed, hTokens⟩ := (recover_suffix rest').trans hSuffix
          rw [← hTokens]
          exact .append passed ((members_keeps inBlock (recover rest')).mono
            fun _ _ _ _ hRest => hRest.append_left passed)
      · obtain ⟨hIn, hKind⟩ := Classical.not_imp.1 hOpen
        rw [hIn, reading_members_closing (Classical.not_not.1 hKind)]
        exact ⟨[], rfl, .nil⟩
termination_by (tokens.length, 2)

end

/-- The statements of a program are kept of its tokens, whatever is
broken. -/
theorem keepsAll_stmts (tokens : List Token) :
    KeepsAll (programTokens tokens) (Program.ofTokens tokens).stmts := by
  have hKeeps := members_keeps false (programTokens tokens)
  rw [Members.reading, members_rest_eq_nil] at hKeeps
  obtain ⟨phrase, hTokens, hPhrase⟩ := hKeeps
  rw [List.append_nil] at hTokens
  rw [hTokens]
  exact hPhrase

end Grammar

end ImpFront
