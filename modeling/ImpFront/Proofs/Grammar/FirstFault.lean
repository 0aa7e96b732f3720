import ImpFront.Proofs.Grammar.Acceptance
import ImpFront.Proofs.Grammar.Lookahead

/-!
# The first fault is found as early as possible

The first error of a program is about the earliest token at which it shows
that the tokens are none. Whatever stands in front of that token is still
the beginning of some program, since verdicts are sound. And no program
goes on with the token, since the rules look no further ahead than that
token and would break at it whatever came behind. At the end of the input
the tokens are the beginning of a program but not a whole one.

## Main results

* `first_error_earliest` — the tokens before the first error begin a
  program, and with the token of the error they do not.
-/

namespace ImpFront

open Grammar

/-- The tokens that are looked at: those of the program, and the end of the
input. -/
def inputTokens (tokens : List Token) : List Token :=
  programTokens tokens ++ [(Reader.ofTokens tokens).finish]

/-- Where in a list of tokens the failure is: in front of what it found. -/
def Grammar.Failure.index (tokens : List Token) (failure : Failure) : Nat :=
  tokens.length - failure.found.length

/-- Where the errors of a program are, in the order in which they are
reported. -/
def errorIndices (tokens : List Token) : List Nat :=
  (members false (programTokens tokens)).failures.map
    (·.index (programTokens tokens))

namespace Grammar

/-- Some program begins with the tokens. -/
def BeginsProgram (tokens : List Token) : Prop :=
  ∃ more stmts, IsProgram (tokens ++ more) stmts

/-- The first failure is the verdict. -/
theorem verdict_members_of_failures_eq_cons {tokens : List Token}
    {failure : Failure} {later : List Failure}
    (h : (members false tokens).failures = failure :: later) :
    (members false tokens).verdict = .broken failure := by
  rw [Members.verdict, h]
  rfl

/-- A program has no verdict but a clean one. -/
theorem not_isProgram_of_broken {tokens : List Token} {failure : Failure}
    (h : (members false tokens).verdict = .broken failure) (stmts : List Stmt) :
    ¬IsProgram tokens stmts := by
  intro hIsProgram
  rw [Members.verdict, failures_eq_nil_of_isProgram hIsProgram] at h
  cases h

/-- Nothing that begins like the tokens up to the fault is a program. -/
theorem not_beginsProgram_of_broken {read found : List Token} {token : Token}
    {fault : SyntaxFault}
    (h : (members false (read ++ token :: found)).verdict =
      .broken ⟨fault, token :: found⟩) :
    ¬BeginsProgram (read ++ [token]) := by
  rintro ⟨more, stmts, hIsProgram⟩
  have hBroken := members_broken_of_shared h more
  rw [List.append_assoc] at hIsProgram
  exact not_isProgram_of_broken hBroken stmts hIsProgram

/-- **The first error is reported at the earliest possible token.** What
stands in front of it is the beginning of a program. With the token of the
error it is the beginning of none; and if that token is the end of the
input, then what stands in front of it is no program itself. -/
theorem first_error_earliest (tokens : List Token) {error : SyntaxError}
    {later : List SyntaxError}
    (h : (Program.ofTokens tokens).errors = error :: later) :
    ∃ i, (errorIndices tokens).head? = some i ∧
      (inputTokens tokens)[i]? = some error.token ∧
      BeginsProgram ((inputTokens tokens).take i) ∧
      (error.token.kind ≠ .endOfInput →
        ¬BeginsProgram ((inputTokens tokens).take (i + 1))) ∧
      (error.token.kind = .endOfInput →
        ¬∃ stmts, IsProgram ((inputTokens tokens).take i) stmts) := by
  rw [errors_ofTokens] at h
  obtain ⟨failure, failures, hFailures, hError, _⟩ := List.map_eq_cons_iff.1 h
  have hVerdict := verdict_members_of_failures_eq_cons hFailures
  have hSound := members_sound false (programTokens tokens)
  rw [hVerdict] at hSound
  obtain ⟨read, hTokens, hBegins⟩ := hSound
  have hIndex : failure.index (programTokens tokens) = read.length := by
    rw [Failure.index, hTokens, List.length_append, Nat.add_sub_cancel]
  have hTake : (inputTokens tokens).take read.length = read := by
    rw [inputTokens, hTokens, List.append_assoc, List.take_left]
  have hNext : (inputTokens tokens)[read.length]? = some error.token := by
    rw [inputTokens, hTokens, List.append_assoc, ← hError]
    cases hFound : failure.found <;> simp [Failure.toError, hFound]
  refine ⟨read.length, ?_, hNext, ?_, ?_, ?_⟩
  · rw [errorIndices, hFailures, List.map_cons, hIndex]
    rfl
  · rw [hTake]
    exact hBegins
  · intro hKind
    rw [List.take_add_one, hTake, hNext]
    obtain ⟨fault, found⟩ := failure
    cases found with
    | nil =>
        rw [← hError] at hKind
        exact absurd (Reader.kind_finishOf _) hKind
    | cons token found =>
        obtain rfl : token = error.token := by rw [← hError]; rfl
        rw [hTokens] at hVerdict
        exact not_beginsProgram_of_broken hVerdict
  · rintro hKind ⟨stmts, hIsProgram⟩
    rw [hTake] at hIsProgram
    obtain ⟨fault, found⟩ := failure
    cases found with
    | nil =>
        rw [hTokens, List.append_nil] at hVerdict
        exact not_isProgram_of_broken hVerdict stmts hIsProgram
    | cons token found =>
        have hMem : token ∈ programTokens tokens := by rw [hTokens]; simp
        rw [← hError] at hKind
        exact kind_ne_of_mem_programTokens hMem hKind

/-- In `x = ;` a value is wanted where the semicolon is: `x =` begins a
program, and `x = ;` does not. -/
theorem first_error_earliest_missing_value :
    let tokens : List Token := [⟨.identifier, "x", .start⟩,
      ⟨.assign, "=", .start⟩, ⟨.semicolon, ";", .start⟩]
    (Program.ofTokens tokens).errors = [⟨.operand, ⟨.semicolon, ";", .start⟩⟩] ∧
      errorIndices tokens = [2] ∧
      BeginsProgram (tokens.take 2) ∧ ¬BeginsProgram (tokens.take 3) := by
  intro tokens
  have hFailures : (members false (programTokens tokens)).failures =
      [⟨.operand, [⟨.semicolon, ";", .start⟩]⟩] := by cbv
  have hErrors : (Program.ofTokens tokens).errors =
      [⟨.operand, ⟨.semicolon, ";", .start⟩⟩] := by
    rw [errors_ofTokens, hFailures]
    rfl
  have hIndices : errorIndices tokens = [2] := by
    rw [errorIndices, hFailures]
    rfl
  obtain ⟨i, hIndex, _, hBegins, hEnds, _⟩ :=
    first_error_earliest tokens hErrors
  rw [hIndices] at hIndex
  obtain rfl : 2 = i := Option.some.inj hIndex
  exact ⟨hErrors, hIndices, hBegins, hEnds (by decide)⟩

end Grammar

end ImpFront
