import ImpFront.Proofs.Grammar.NearestElse

/-!
# A program is accepted exactly if the grammar derives it

The tokens of a program are those in front of the first end of the input,
without the comments. If nothing is wrong with them then they have a
derivation, and what is read is its tree; if they have any derivation at
all then nothing is found to be wrong. Of several derivations, which can
differ only in the `if` that an `else` belongs to, the tree that is read
belongs to the one in which it is always the nearest.

## Main results

* `members_rest_eq_nil` — a program is read to the end of the input.
* `isProgram_of_failures_eq_nil`, `failures_eq_nil_of_isProgram` — the two
  directions.
* `errors_eq_nil_iff_isProgram` — reading accepts what the grammar derives,
  with the tree of the derivation.
-/

namespace ImpFront

/-- The tokens that make up a program: no comments, and nothing from the
first end of the input on. -/
def programTokens (tokens : List Token) : List Token :=
  (tokens.filter fun token => !token.kind.isComment).takeWhile
    (·.kind ≠ .endOfInput)

theorem mem_of_mem_programTokens {tokens : List Token} {token : Token}
    (h : token ∈ programTokens tokens) : token ∈ tokens :=
  (List.mem_filter.1 ((List.takeWhile_sublist _).subset h)).1

theorem unread_ofTokens (tokens : List Token) :
    (Reader.ofTokens tokens).unread = programTokens tokens := rfl

/-- Comments that are left out before make no difference. -/
theorem ofTokens_filter (tokens : List Token) :
    Program.ofTokens
        (tokens.filter fun token => !token.kind.isComment) =
      Program.ofTokens tokens := by
  rw [Program.ofTokens, Program.ofTokens, Reader.ofTokens, Reader.ofTokens,
    List.filter_filter]
  simp only [Bool.and_self]

namespace Grammar

theorem kind_ne_of_mem_programTokens {tokens : List Token} {token : Token}
    (h : token ∈ programTokens tokens) : token.kind ≠ .endOfInput := by
  rw [← unread_ofTokens] at h
  exact (Reader.kind_ne_of_mem_unread h).1

/-- Outside of blocks nothing but the end of the input ends a sequence. -/
theorem members_rest_eq_nil (tokens : List Token) :
    (members false tokens).rest = [] := by
  cases tokens with
  | nil => rw [members_nil]
  | cons token rest =>
      have hOpen : false = true → token.kind ≠ .rightBrace := by
        intro h
        cases h
      cases hStmt : declaration (token :: rest) with
      | mk mended outcome =>
        cases outcome with
        | accept stmt rest' hLess =>
            rw [members_accept hOpen hStmt]
            exact members_rest_eq_nil rest'
        | reject failure rest' hLe =>
            have hLess := length_recover_lt_of_le (Nat.succ_pos rest.length) hLe
            rw [members_reject hOpen hStmt]
            exact members_rest_eq_nil (recover rest')
termination_by tokens.length
decreasing_by all_goals exact hLess

theorem verdict_members_of_failures_eq_nil {inBlock : Bool}
    {tokens : List Token} (h : (members inBlock tokens).failures = []) :
    (members inBlock tokens).verdict =
      .clean (members inBlock tokens).stmts (members inBlock tokens).rest := by
  rw [Members.verdict, h]
  rfl

/-- What nothing is wrong with is a program. -/
theorem isProgram_of_failures_eq_nil {tokens : List Token}
    (h : (members false tokens).failures = []) :
    IsProgram tokens (members false tokens).stmts := by
  have hSound := members_sound false tokens
  rw [verdict_members_of_failures_eq_nil h, members_rest_eq_nil] at hSound
  obtain ⟨phrase, hTokens, hPhrase⟩ := hSound
  rw [List.append_nil] at hTokens
  rw [← hTokens] at hPhrase
  exact hPhrase

theorem members_of_isProgram {tokens : List Token} {stmts : List Stmt}
    (h : IsProgram tokens stmts) (hNearest : Stmt.ElsesNearest stmts) :
    (members false tokens).failures = [] ∧
      (members false tokens).stmts = stmts := by
  have hRead := verdict_members_of_isProgram h hNearest false [] nofun
  rw [List.append_nil, Members.verdict] at hRead
  cases hFailures : (members false tokens).failures with
  | nil =>
      rw [hFailures, Verdict.behind_nil] at hRead
      injection hRead with hStmts _
      exact ⟨rfl, hStmts⟩
  | cons failure failures =>
      rw [hFailures] at hRead
      cases hRead

/-- Nothing is wrong with a program. -/
theorem failures_eq_nil_of_isProgram {tokens : List Token}
    {stmts : List Stmt} (h : IsProgram tokens stmts) :
    (members false tokens).failures = [] := by
  obtain ⟨nearest, hIsProgram, hNearest⟩ := h.exists_elsesNearest
  exact (members_of_isProgram hIsProgram hNearest).1

theorem errors_ofTokens (tokens : List Token) :
    (Program.ofTokens tokens).errors =
      (members false (programTokens tokens)).failures.map
        (·.toError (Reader.ofTokens tokens).finish) := rfl

theorem errors_eq_nil_iff (tokens : List Token) :
    (Program.ofTokens tokens).errors = [] ↔
      (members false (programTokens tokens)).failures = [] := by
  rw [errors_ofTokens, List.map_eq_nil_iff]

/-- **Reading accepts exactly the programs of the grammar.** A list of
tokens is read without an error if and only if the grammar derives it; and
the statements that are then read are those of the one derivation in which
every `else` belongs to the nearest `if`. -/
theorem errors_eq_nil_iff_isProgram (tokens : List Token) :
    ((Program.ofTokens tokens).errors = [] ↔
      ∃ stmts, IsProgram (programTokens tokens) stmts) ∧
    ∀ stmts, ((Program.ofTokens tokens).errors = [] ∧
        (Program.ofTokens tokens).stmts = stmts) ↔
      (IsProgram (programTokens tokens) stmts ∧
        ∀ stmt ∈ stmts, stmt.ElseNearest) := by
  refine ⟨?_, ?_⟩
  · rw [errors_eq_nil_iff]
    constructor
    · intro hNone
      exact ⟨_, isProgram_of_failures_eq_nil hNone⟩
    · rintro ⟨stmts, hIsProgram⟩
      exact failures_eq_nil_of_isProgram hIsProgram
  · intro stmts
    rw [errors_eq_nil_iff, ← Stmt.elsesNearest_iff]
    constructor
    · rintro ⟨hNone, rfl⟩
      exact ⟨isProgram_of_failures_eq_nil hNone,
        members_elsesNearest false (programTokens tokens)⟩
    · rintro ⟨hIsProgram, hNearest⟩
      exact members_of_isProgram hIsProgram hNearest

end Grammar

end ImpFront
