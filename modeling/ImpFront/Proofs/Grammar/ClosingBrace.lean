import ImpFront.Proofs.Grammar.Blocks
import ImpFront.Proofs.Grammar.Justified

/-!
# When a block loses its closing brace

Recovery looks for semicolons and for words that begin statements, but not
for braces. So it may pass over the brace that closes a block, and then the
whole block is lost: its statements are dropped, and the brace is said to be
missing at the end of the input.

Between two braces let there be tokens without any. Then the last of these
tokens decides. If it is a semicolon, or if there is none, the block is kept
however broken its statements are, because recovery stops behind the
semicolon at the latest. If it is anything else then some statement is
broken, as every statement ends with a semicolon, and from there recovery
goes on past the closing brace; and no statement that is read before brings
the end of the tokens any nearer to a semicolon.

## Main results

* `LeftOpen.exists_members_eq` — members that do not end with a semicolon pass
  over the closing brace.
* `members_block_kept`, `LeftOpen.members_block_lost` — what a block comes to.
* `isOneBlock_iff` — which blocks are kept.
-/

namespace ImpFront

namespace Grammar

/-! ## Tokens in front of a closing brace -/

/-- In front of a closing brace there are some tokens without braces, and the
last of them is not a semicolon. -/
structure LeftOpen (tokens : List Token) (closing : Token) : Prop where
  unbraced : ∀ token ∈ tokens,
    token.kind ≠ .leftBrace ∧ token.kind ≠ .rightBrace
  openEnd : ∃ last ∈ tokens.getLast?, last.kind ≠ .semicolon
  closing : closing.kind = .rightBrace

namespace LeftOpen

variable {tokens phrase rest : List Token} {token closing : Token} {stmt : Stmt}

/-- As long as something is left, the last token is the same. -/
theorem of_suffix (h : LeftOpen tokens closing) (hSuffix : rest <:+ tokens)
    (hRest : rest ≠ []) : LeftOpen rest closing where
  unbraced token hMem := h.unbraced token (hSuffix.subset hMem)
  openEnd := by
    obtain ⟨before, rfl⟩ := hSuffix
    obtain ⟨last, hLast, hKind⟩ := h.openEnd
    rw [List.getLast?_append_of_ne_nil before hRest] at hLast
    exact ⟨last, hLast, hKind⟩
  closing := h.closing

theorem not_endsWithSemicolon (h : LeftOpen tokens closing) :
    ¬EndsWithSemicolon tokens := by
  rintro ⟨semicolon, hSemicolon, hKind⟩
  obtain ⟨last, hLast, hOther⟩ := h.openEnd
  cases hSemicolon.symm.trans hLast
  exact hOther hKind

theorem kind_ne_leftBrace (h : LeftOpen tokens closing) :
    ∀ token ∈ tokens ++ [closing], token.kind ≠ .leftBrace := by
  rw [List.forall_mem_append, List.forall_mem_singleton, h.closing]
  exact ⟨fun token hMem => (h.unbraced token hMem).1, by decide⟩

/-! ### Members -/

/-- A statement leaves a part of the tokens of which the same is true. -/
theorem exists_left_of_keeps (h : LeftOpen tokens closing)
    (hTokens : tokens ++ [closing] = phrase ++ rest)
    (hDecl : KeepsDecl phrase stmt) :
    ∃ left, rest = left ++ [closing] ∧ LeftOpen left closing := by
  have hEnds : EndsWithSemicolon phrase :=
    hDecl.endsWithSemicolon fun token hMem => h.kind_ne_leftBrace token
      (hTokens ▸ List.mem_append_left rest hMem)
  have hSuffix : rest <:+ tokens ++ [closing] := ⟨phrase, hTokens.symm⟩
  rcases List.suffix_concat_iff.1 hSuffix with rfl | ⟨left, rfl, hLeft⟩
  · -- the closing brace cannot be the last token of the statement
    obtain ⟨last, hLast, hKind⟩ := hEnds
    rw [List.append_nil] at hTokens
    rw [← hTokens, List.getLast?_concat] at hLast
    cases hLast
    cases hKind.symm.trans h.closing
  · rw [← List.append_assoc] at hTokens
    have hSame := List.append_cancel_right hTokens
    refine ⟨left, rfl, h.of_suffix hLeft ?_⟩
    rintro rfl
    rw [List.append_nil] at hSame
    exact h.not_endsWithSemicolon (hSame ▸ hEnds)

/-- Recovery passes over everything, or it leaves a part of the tokens of
which the same is true. -/
theorem resume_cases (h : LeftOpen (token :: tokens) closing) :
    resume token (tokens ++ [closing]) = [] ∨
      ∃ left, resume token (tokens ++ [closing]) = left ++ [closing] ∧
        LeftOpen left closing := by
  induction tokens generalizing token with
  | nil =>
      obtain ⟨last, ⟨⟩, hKind⟩ := h.openEnd
      have hGoOn : ¬(token.kind = .semicolon ||
          closing.kind.beginsStatement) = true := by
        rw [h.closing, Bool.or_eq_true, decide_eq_true_iff]
        exact not_or.2 ⟨hKind, Bool.false_ne_true⟩
      left
      rw [List.nil_append, resume, if_neg hGoOn, resume]
  | cons second tokens ih =>
      have hLeft : LeftOpen (second :: tokens) closing :=
        h.of_suffix (List.suffix_cons token _) (List.cons_ne_nil second tokens)
      rw [List.cons_append, resume]
      split
      · exact .inr ⟨second :: tokens, rfl, hLeft⟩
      · exact ih hLeft

theorem recover_cases (h : LeftOpen tokens closing)
    (hSuffix : rest <:+ tokens ++ [closing]) :
    recover rest = [] ∨
      ∃ left, recover rest = left ++ [closing] ∧ LeftOpen left closing := by
  rcases List.suffix_concat_iff.1 hSuffix with rfl | ⟨left, rfl, hLeft⟩
  · exact .inl rfl
  · cases left with
    | nil => exact .inl rfl
    | cons token left =>
        exact (h.of_suffix hLeft (List.cons_ne_nil token left)).resume_cases

/-- Members that do not end with a semicolon are broken somewhere, and pass
over the closing brace. -/
theorem exists_members_eq {tokens : List Token} (h : LeftOpen tokens closing) :
    ∃ stmts failures, failures ≠ [] ∧
      members true (tokens ++ [closing]) = ⟨stmts, failures, []⟩ := by
  match tokens with
  | [] =>
      obtain ⟨last, hLast, -⟩ := h.openEnd
      cases hLast
  | token :: rest =>
      have hOpen : true = true → token.kind ≠ .rightBrace :=
        fun _ => (h.unbraced token List.mem_cons_self).2
      cases hReading : (declaration (token :: (rest ++ [closing]))).reading with
      | accept mended stmt rest' =>
          have hKeeps := declaration_keeps token (rest ++ [closing])
          have hLess := Attempt.length_lt_of_reading hReading
          rw [hReading] at hKeeps
          obtain ⟨phrase, hTokens, hDecl⟩ := hKeeps
          obtain ⟨left, rfl, hLeft⟩ := h.exists_left_of_keeps hTokens hDecl
          have hShorter : left.length < (token :: rest).length := by
            simpa using hLess
          obtain ⟨stmts, failures, hBroken, hMembers⟩ := hLeft.exists_members_eq
          rw [List.cons_append, members_of_accept hOpen hReading, hMembers]
          exact ⟨_, _, List.append_ne_nil_of_right_ne_nil mended hBroken, rfl⟩
      | reject mended failure rest' =>
          have hSuffix : rest' <:+ token :: (rest ++ [closing]) :=
            (@declaration_stable [] _).suffix_of_reject hReading
          have hLess : (recover rest').length <
              (token :: (rest ++ [closing])).length :=
            length_recover_lt_of_le (Nat.succ_pos _) hSuffix.length_le
          rw [List.cons_append, members_of_reject hOpen hReading]
          rcases h.recover_cases hSuffix with hNone | ⟨left, hRecover, hLeft⟩
          · rw [hNone, members_nil]
            exact ⟨_, _, by simp, rfl⟩
          · have hShorter : left.length < (token :: rest).length := by
              rw [hRecover] at hLess
              simpa using hLess
            obtain ⟨stmts, failures, -, hMembers⟩ := hLeft.exists_members_eq
            rw [hRecover, hMembers]
            exact ⟨_, _, by simp, rfl⟩
termination_by tokens.length
decreasing_by all_goals exact hShorter

end LeftOpen

/-! ## Blocks -/

section Block

variable {opening closing : Token} {tokens : List Token}

/-- A block is kept if there is a semicolon in front of its closing brace, or
nothing. -/
theorem members_block_kept (hOpening : opening.kind = .leftBrace)
    (hClosing : closing.kind = .rightBrace)
    (hUnbraced : ∀ token ∈ tokens,
      token.kind ≠ .leftBrace ∧ token.kind ≠ .rightBrace)
    (hLast : SemicolonLast tokens) :
    members false (opening :: (tokens ++ [closing])) =
      ⟨[.block (members false tokens).stmts],
        (members false tokens).failures.map (·.onto [closing]), []⟩ := by
  obtain ⟨hFirm, hContained⟩ := firm_and_contained (.inr ⟨hUnbraced, hLast⟩)
  have hBlock :=
    reading_block_of_contained hOpening hClosing hFirm hContained []
  rw [members_of_accept outside_ne_rightBrace hBlock, members_nil,
    List.append_nil]

/-- And otherwise it is lost, behind whatever else is wrong with it. -/
theorem LeftOpen.members_block_lost (h : LeftOpen tokens closing)
    (hOpening : opening.kind = .leftBrace) :
    ∃ failures, failures ≠ [] ∧
      members false (opening :: (tokens ++ [closing])) =
        ⟨[], failures ++ [⟨.blockClosing, []⟩], []⟩ := by
  obtain ⟨stmts, failures, hBroken, hMembers⟩ := h.exists_members_eq
  have hReading : (declaration (opening :: (tokens ++ [closing]))).reading =
      .reject failures ⟨.blockClosing, []⟩ [] := by
    rw [reading_declaration_statement (by rw [hOpening]; decide)
        (by rw [hOpening]; decide), reading_statement_block hOpening, hMembers]
    show Reading.reject (failures ++ []) _ [] = _
    rw [List.append_nil]
  refine ⟨failures, hBroken, ?_⟩
  rw [members_of_reject outside_ne_rightBrace hReading, recover_nil,
    members_nil]

/-- Where no block is opened and a semicolon is the end, nothing is said of
closing braces. -/
theorem fault_ne_blockClosing (hLast : SemicolonLast tokens)
    (hUnopened : ∀ token ∈ tokens, token.kind ≠ .leftBrace) :
    ∀ failure ∈ (members false tokens).failures,
      failure.fault ≠ .blockClosing := by
  intro failure hMem hFault
  exact found_ne_nil_of_unopened hLast hUnopened failure hMem
    ((members_explained false tokens failure hMem).found_eq_nil hFault)

end Block

end Grammar

open Grammar

/-! ## Programs -/

/-- The program is one block, and of no block the closing brace is said to be
missing. -/
def Program.IsOneBlock (program : Program) : Prop :=
  (∃ members, program.stmts = [.block members]) ∧
    ∀ error ∈ program.errors, error.fault ≠ .blockClosing

section Program

variable {opening closing : Token} {body : List Token}

/-- The closing brace is the last token, so the end of the input is there. -/
theorem finish_block (hOpening : opening.kind = .leftBrace)
    (hClosing : closing.kind = .rightBrace)
    (hBody : ∀ token ∈ body, token.kind ≠ .endOfInput) :
    (Reader.ofTokens (opening :: (body ++ [closing]))).finish =
      .atEnd closing.position := by
  have hTokens : ∀ token ∈ opening :: body ++ [closing],
      token.kind ≠ .endOfInput := by
    simpa [or_imp, forall_and, hOpening, hClosing] using hBody
  have hNone : ((opening :: body ++ [closing]).filter
      fun token => !token.kind.isComment).find?
        (·.kind = .endOfInput) = none := by
    rw [List.find?_eq_none]
    intro token hMem
    simpa using hTokens token (List.mem_of_mem_filter hMem)
  have hMeaningful : [closing].filter (fun token => !token.kind.isComment) =
      [closing] := List.filter_cons_of_pos (by rw [hClosing]; rfl)
  have hLast : ((opening :: body ++ [closing]).filter
      fun token => !token.kind.isComment).getLast? = some closing := by
    rw [List.filter_append, hMeaningful, List.getLast?_concat]
  show Reader.finishOf ((opening :: body ++ [closing]).filter _) = _
  rw [Reader.finishOf, hNone, hLast]

theorem ofTokens_block_kept (hOpening : opening.kind = .leftBrace)
    (hClosing : closing.kind = .rightBrace)
    (hBody : ∀ token ∈ body, token.kind ≠ .endOfInput)
    (hUnbraced : ∀ token ∈ programTokens body,
      token.kind ≠ .leftBrace ∧ token.kind ≠ .rightBrace)
    (hLast : SemicolonLast (programTokens body)) :
    (Program.ofTokens (opening :: (body ++ [closing]))).stmts =
        [.block (Program.ofTokens body).stmts] ∧
      (Program.ofTokens (opening :: (body ++ [closing]))).errors =
        (Program.ofTokens body).errors := by
  have hMembers := members_block_kept hOpening hClosing hUnbraced hLast
  have hFirm := found_ne_nil_of_unopened hLast fun token hMem =>
    (hUnbraced token hMem).1
  have hTokens : programTokens (opening :: (body ++ [closing])) =
      opening :: (programTokens body ++ [closing]) :=
    programTokens_block hOpening hClosing hBody []
  rw [← hTokens] at hMembers
  refine ⟨congrArg Members.stmts hMembers, ?_⟩
  rw [errors_ofTokens, hMembers, List.map_map]
  exact List.map_congr_left fun failure hMem =>
    Failure.toError_onto (hFirm failure hMem) ..

theorem ofTokens_block_lost (hOpening : opening.kind = .leftBrace)
    (hBody : ∀ token ∈ body, token.kind ≠ .endOfInput)
    (h : LeftOpen (programTokens body) closing) :
    (Program.ofTokens (opening :: (body ++ [closing]))).stmts = [] ∧
      ∃ errors, errors ≠ [] ∧
        (Program.ofTokens (opening :: (body ++ [closing]))).errors =
          errors ++ [⟨.blockClosing, .atEnd closing.position⟩] := by
  obtain ⟨failures, hBroken, hMembers⟩ := h.members_block_lost hOpening
  have hTokens : programTokens (opening :: (body ++ [closing])) =
      opening :: (programTokens body ++ [closing]) :=
    programTokens_block hOpening h.closing hBody []
  rw [← hTokens] at hMembers
  refine ⟨congrArg Members.stmts hMembers,
    failures.map (·.toError (.atEnd closing.position)), ?_, ?_⟩
  · rwa [ne_eq, List.map_eq_nil_iff]
  · rw [errors_ofTokens, hMembers, finish_block hOpening h.closing hBody,
      List.map_append]
    rfl

/-- **Which blocks keep their closing brace.** Let there be tokens between
two braces, without any braces and without an end of the input among them.
They are read as one block, of which no brace is said to be missing, if and
only if the last of the tokens is a semicolon or there is none, comments
apart. Then the block holds the statements that the tokens have as a program,
and has their errors. Otherwise no statement is left, and the last one of
several errors is that the brace is missing at the end of the input. -/
theorem isOneBlock_iff (hOpening : opening.kind = .leftBrace)
    (hClosing : closing.kind = .rightBrace)
    (hBody : ∀ token ∈ body, token.kind ≠ .leftBrace ∧
      token.kind ≠ .rightBrace ∧ token.kind ≠ .endOfInput) :
    let program := Program.ofTokens (opening :: (body ++ [closing]))
    (program.IsOneBlock ↔
        ∀ last ∈ (programTokens body).getLast?, last.kind = .semicolon) ∧
      (program.IsOneBlock →
        program.stmts = [.block (Program.ofTokens body).stmts] ∧
          program.errors = (Program.ofTokens body).errors) ∧
      (¬program.IsOneBlock →
        program.stmts = [] ∧ ∃ errors, errors ≠ [] ∧
          program.errors =
            errors ++ [⟨.blockClosing, .atEnd closing.position⟩]) := by
  intro program
  have hEnd : ∀ token ∈ body, token.kind ≠ .endOfInput :=
    fun token hMem => (hBody token hMem).2.2
  have hUnbraced : ∀ token ∈ programTokens body,
      token.kind ≠ .leftBrace ∧ token.kind ≠ .rightBrace := by
    intro token hMem
    obtain ⟨hLeft, hRight, -⟩ := hBody token (mem_of_mem_programTokens hMem)
    exact ⟨hLeft, hRight⟩
  by_cases hLast : SemicolonLast (programTokens body)
  · have hKept := ofTokens_block_kept hOpening hClosing hEnd hUnbraced hLast
    have hFaults : ∀ error ∈ program.errors, error.fault ≠ .blockClosing := by
      intro error hMem
      rw [hKept.2] at hMem
      obtain ⟨failure, hFailure, rfl⟩ := List.mem_map.1 hMem
      exact fault_ne_blockClosing hLast
        (fun token hMem => (hUnbraced token hMem).1) failure hFailure
    have hOne : program.IsOneBlock := ⟨⟨_, hKept.1⟩, hFaults⟩
    exact ⟨iff_of_true hOne hLast, fun _ => hKept,
      fun hNot => absurd hOne hNot⟩
  · have hOpen : LeftOpen (programTokens body) closing :=
      { unbraced := hUnbraced
        openEnd := by simpa [SemicolonLast] using hLast
        closing := hClosing }
    have hLost := ofTokens_block_lost hOpening hEnd hOpen
    have hNot : ¬program.IsOneBlock := by
      rintro ⟨⟨members, hStmts⟩, -⟩
      cases hLost.1.symm.trans hStmts
    exact ⟨iff_of_false hNot hLast, fun hOne => absurd hOne hNot,
      fun _ => hLost⟩

/-- In `x + ; y ;` an operand is missing, but the block is kept. -/
theorem isOneBlock_missing_operand :
    let body : List Token := [⟨.identifier, "x", ⟨1, 3⟩⟩,
      ⟨.plus, "+", ⟨1, 5⟩⟩, ⟨.semicolon, ";", ⟨1, 7⟩⟩,
      ⟨.identifier, "y", ⟨1, 9⟩⟩, ⟨.semicolon, ";", ⟨1, 10⟩⟩]
    let program := Program.ofTokens (⟨.leftBrace, "\x7b", ⟨1, 1⟩⟩ ::
      (body ++ [⟨.rightBrace, "\x7d", ⟨1, 12⟩⟩]))
    program.IsOneBlock ∧
      program.stmts =
        [.block [.expression (.var ⟨.identifier, "y", ⟨1, 9⟩⟩)]] ∧
      program.errors = [⟨.operand, ⟨.semicolon, ";", ⟨1, 7⟩⟩⟩] := by
  intro body program
  have hBody : ∀ token ∈ body, token.kind ≠ .leftBrace ∧
      token.kind ≠ .rightBrace ∧ token.kind ≠ .endOfInput := by decide
  obtain ⟨hIff, hKept, -⟩ := isOneBlock_iff
    (rfl : Token.kind ⟨.leftBrace, "\x7b", ⟨1, 1⟩⟩ = .leftBrace)
    (rfl : Token.kind ⟨.rightBrace, "\x7d", ⟨1, 12⟩⟩ = .rightBrace) hBody
  have hOne : program.IsOneBlock := hIff.2 (by decide)
  obtain ⟨hStmts, hErrors⟩ := hKept hOne
  rw [hStmts, hErrors]
  exact ⟨hOne, by cbv, by cbv⟩

/-- In `x` a semicolon is missing, and with it goes the block: recovery passes
over the closing brace, which is then said to be missing too. -/
theorem not_isOneBlock_missing_semicolon :
    let body : List Token := [⟨.identifier, "x", ⟨1, 3⟩⟩]
    let program := Program.ofTokens (⟨.leftBrace, "\x7b", ⟨1, 1⟩⟩ ::
      (body ++ [⟨.rightBrace, "\x7d", ⟨1, 5⟩⟩]))
    (∀ token ∈ body, token.kind ≠ .leftBrace ∧
        token.kind ≠ .rightBrace ∧ token.kind ≠ .endOfInput) ∧
      program.stmts = [] ∧
      ⟨.blockClosing, .atEnd ⟨1, 5⟩⟩ ∈ program.errors ∧
      ¬program.IsOneBlock := by
  intro body program
  have hOpen : LeftOpen (programTokens body)
      ⟨.rightBrace, "\x7d", ⟨1, 5⟩⟩ :=
    { unbraced := by decide
      openEnd := ⟨⟨.identifier, "x", ⟨1, 3⟩⟩, rfl, by decide⟩
      closing := rfl }
  have hEnd : ∀ token ∈ body, token.kind ≠ .endOfInput := by decide
  obtain ⟨hStmts, errors, -, hErrors⟩ := ofTokens_block_lost
    (rfl : Token.kind ⟨.leftBrace, "\x7b", ⟨1, 1⟩⟩ = .leftBrace) hEnd hOpen
  refine ⟨by decide, hStmts, ?_, ?_⟩
  · exact hErrors ▸ List.mem_append_right errors (List.mem_singleton_self _)
  · rintro ⟨⟨members, hBlock⟩, -⟩
    cases hStmts.symm.trans hBlock

end Program

end ImpFront
