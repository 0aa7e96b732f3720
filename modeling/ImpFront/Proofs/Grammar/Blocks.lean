import ImpFront.Proofs.Grammar.Braceless

/-!
# A block is read like a program

The members of a block and those of a program are sequences, and differ in
what ends them: the end of the tokens, and in a block also the first closing
brace that no member has read. Between its braces a block comes to what its
tokens come to as a program, statements and errors alike, if the two ends
are at the same place.

They are if nothing is wrong with the tokens, since no program begins with a
closing brace and so every brace in them is read by a member. If something
is wrong then recovery passes over tokens without looking at braces. With
no brace among them, and a semicolon at the end at which recovery stops, it
neither finds an end too early nor passes over the one that is meant.

## Main results

* `reading_block_of_contained` — a block, by the sequence between its braces.
* `ofTokens_block` — a program that begins with a block.
-/

namespace ImpFront

namespace Grammar

section Block

variable {opening closing : Token} {body : List Token}

/-- Between its braces a block holds what the tokens alone come to. -/
theorem reading_block_of_contained (hOpening : opening.kind = .leftBrace)
    (hClosing : closing.kind = .rightBrace)
    (hFirm : ∀ failure ∈ (members false body).failures, failure.found ≠ [])
    (hEnd : (members false body).failures = [] ∨ Contained true body)
    (rest : List Token) :
    (declaration (opening :: (body ++ closing :: rest))).reading =
      .accept ((members false body).failures.map (·.onto (closing :: rest)))
        (.block (members false body).stmts) rest := by
  have hElse : NoElse (closing :: rest) := by
    rintro _ ⟨⟩
    rw [hClosing]
    decide
  have hInside := members_append_of_contained hElse hFirm hEnd
  rw [members_closing hClosing, List.append_nil, List.append_nil] at hInside
  rw [reading_declaration_statement (by rw [hOpening]; decide)
      (by rw [hOpening]; decide), reading_statement_block hOpening, hInside,
    Members.reading, Reading.bind, reading_expect_of_eq hClosing,
    Reading.map_accept, Reading.after, List.append_nil]

/-- A brace is one of the tokens of a program. -/
theorem programTokens_brace {token : Token}
    (h : token.kind = .leftBrace ∨ token.kind = .rightBrace)
    (rest : List Token) :
    programTokens (token :: rest) = token :: programTokens rest := by
  rcases h with h | h <;> simp [programTokens, Token.Kind.isComment, h]

theorem programTokens_block (hOpening : opening.kind = .leftBrace)
    (hClosing : closing.kind = .rightBrace)
    (hBody : ∀ token ∈ body, token.kind ≠ .endOfInput) (rest : List Token) :
    programTokens (opening :: (body ++ closing :: rest)) =
      opening :: (programTokens body ++ closing :: programTokens rest) := by
  rw [programTokens_brace (.inl hOpening), programTokens_append hBody,
    programTokens_brace (.inr hClosing)]

/-- What keeps a sequence inside of a block: nothing is wrong with it, or
there are no braces in it and a semicolon is its end. -/
theorem firm_and_contained
    (h : (members false body).failures = [] ∨
      (∀ token ∈ body, token.kind ≠ .leftBrace ∧ token.kind ≠ .rightBrace) ∧
        SemicolonLast body) :
    (∀ failure ∈ (members false body).failures, failure.found ≠ []) ∧
      ((members false body).failures = [] ∨ Contained true body) := by
  rcases h with hNone | ⟨hBraces, hLast⟩
  · refine ⟨?_, .inl hNone⟩
    rw [hNone]
    exact List.forall_mem_nil _
  · refine ⟨found_ne_nil_of_unopened hLast fun token hMem =>
      (hBraces token hMem).1, .inr ⟨hLast, fun _ token hMem => ?_⟩⟩
    exact (hBraces token hMem).2

end Block

end Grammar

open Grammar

/-- **A block is read like a program.** Let some tokens without an end of the
input have no errors as a program, or let there be no braces among them and
a semicolon at their end, if they have one. Between braces, and in front of
any other tokens, they are read as the block of the statements that they
have as a program, and with the same errors; and what stands behind the
block is read as if it stood alone. -/
theorem ofTokens_block {opening closing : Token} {body : List Token}
    (hOpening : opening.kind = .leftBrace)
    (hClosing : closing.kind = .rightBrace)
    (hBody : ∀ token ∈ body, token.kind ≠ .endOfInput)
    (hEnds : (Program.ofTokens body).errors = [] ∨
      (∀ token ∈ programTokens body,
        token.kind ≠ .leftBrace ∧ token.kind ≠ .rightBrace) ∧
      ∀ last ∈ (programTokens body).getLast?, last.kind = .semicolon)
    (rest : List Token) :
    (Program.ofTokens (opening :: (body ++ closing :: rest))).stmts =
        .block (Program.ofTokens body).stmts :: (Program.ofTokens rest).stmts ∧
      (Program.ofTokens (opening :: (body ++ closing :: rest))).errors =
        (Program.ofTokens body).errors ++ (Program.ofTokens rest).errors := by
  rw [errors_eq_nil_iff] at hEnds
  obtain ⟨hFirm, hContained⟩ := firm_and_contained hEnds
  have hBlock := reading_block_of_contained hOpening hClosing hFirm hContained
    (programTokens rest)
  have hAll := members_of_accept outside_ne_rightBrace hBlock
  rw [← programTokens_block hOpening hClosing hBody rest] at hAll
  constructor
  · exact congrArg Members.stmts hAll
  · have hInside : (members false (programTokens body)).failures.map
        (fun failure => (failure.onto (closing :: programTokens rest)).toError
          (Reader.ofTokens (opening :: (body ++ closing :: rest))).finish) =
        (Program.ofTokens body).errors :=
      List.map_congr_left fun failure hMem =>
        Failure.toError_onto (hFirm failure hMem) ..
    have hFront : ∀ token ∈ opening :: (body ++ [closing]),
        token.kind ≠ .endOfInput := by
      simpa [or_imp, forall_and, hOpening, hClosing] using hBody
    have hBehind := @map_toError_append _ rest hFront
    rw [List.cons_append, List.append_assoc, List.singleton_append] at hBehind
    rw [errors_ofTokens (opening :: _), hAll, List.map_append, List.map_map,
      hBehind, ← hInside]
    rfl

/-- In `x + ; y ;` an operand is missing. Between braces, and in front of
`z ;`, the first statement is left out of the block, and the second one is
its only member. -/
theorem ofTokens_block_missing_operand :
    let body : List Token := [⟨.identifier, "x", .start⟩, ⟨.plus, "+", .start⟩,
      ⟨.semicolon, ";", .start⟩, ⟨.identifier, "y", .start⟩,
      ⟨.semicolon, ";", .start⟩]
    let rest : List Token := [⟨.identifier, "z", .start⟩,
      ⟨.semicolon, ";", .start⟩]
    let block : List Token := ⟨.leftBrace, "\x7b", .start⟩ ::
      (body ++ ⟨.rightBrace, "\x7d", .start⟩ :: rest)
    (Program.ofTokens block).stmts =
        [.block [.expression (.var ⟨.identifier, "y", .start⟩)],
          .expression (.var ⟨.identifier, "z", .start⟩)] ∧
      (Program.ofTokens block).errors =
        [⟨.operand, ⟨.semicolon, ";", .start⟩⟩] := by
  intro body rest block
  have hBody : ∀ token ∈ body, token.kind ≠ .endOfInput := by decide
  have hBraces : ∀ token ∈ programTokens body,
      token.kind ≠ .leftBrace ∧ token.kind ≠ .rightBrace := by decide
  have hLast : ∀ last ∈ (programTokens body).getLast?,
      last.kind = .semicolon := by decide
  obtain ⟨hStmts, hErrors⟩ := ofTokens_block
    (rfl : Token.kind ⟨.leftBrace, "\x7b", .start⟩ = .leftBrace)
    (rfl : Token.kind ⟨.rightBrace, "\x7d", .start⟩ = .rightBrace)
    hBody (.inr ⟨hBraces, hLast⟩) rest
  rw [hStmts, hErrors]
  constructor <;> cbv

end ImpFront
