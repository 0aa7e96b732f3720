import ImpFront.Proofs.Cursor.Fuel
import ImpFront.Proofs.Cursor.Statements
import ImpFront.Proofs.Grammar.Acceptance

/-!
# The cursor stays in its array and comes to the end

A session reads a number of expressions and then a program, on one cursor.
Whatever tokens it is given, it ends, with fuel that is proportional to
their number and with the cursor on the first end of the input; and on the
way there nothing is out of order. What it has read is what a reader of the
same tokens reads.

## Main results

* `exists_stream` — the tokens of a new cursor are a stream.
* `session_ends` — a session does what a reader does.
* `session_in_order` — it ends, in the array, on the first end of the input.
-/

namespace ImpFront

open Token (Kind)

/-- Read a number of expressions, whether or not there are any, and then
all the rest as a program. -/
def Reader.session : Nat → Reader → List (Option Expr) × Program
  | 0, reader => ([], reader.program)
  | count + 1, reader =>
    let (first, reader') := reader.expression
    let (others, program) := reader'.session count
    (first :: others, program)

namespace Cursor

/-! ## The tokens of a new cursor -/

/-- A list in which an element is found begins with what is in front of
it. -/
theorem eq_takeWhile_append_of_find? {tokens : List Token} {token : Token}
    (h : tokens.find? (·.kind = .endOfInput) = some token) :
    ∃ beyond, tokens =
      tokens.takeWhile (·.kind ≠ .endOfInput) ++ token :: beyond := by
  obtain ⟨hKind, before, beyond, hTokens, hBefore⟩ :=
    List.find?_eq_some_iff_append.1 h
  refine ⟨beyond, ?_⟩
  have hTake : tokens.takeWhile (·.kind ≠ .endOfInput) = before := by
    rw [hTokens, List.takeWhile_append_of_pos (by simpa using hBefore),
      List.takeWhile_cons_of_neg (by simpa using hKind), List.append_nil]
  rw [hTake]
  exact hTokens

/-- A list without an end of the input is kept as a whole. -/
theorem takeWhile_eq_self_of_find? {tokens : List Token}
    (h : tokens.find? (·.kind = .endOfInput) = none) :
    tokens.takeWhile (·.kind ≠ .endOfInput) = tokens := by
  have hAll := List.find?_eq_none.1 h
  rw [← List.append_nil tokens, List.takeWhile_append_of_pos]
  · rfl
  · simpa using hAll

/-- The tokens of a new cursor are those that a new reader holds, the end
of the input, and what may be behind it. -/
theorem exists_stream (tokens : List Token) :
    ∃ stream : Stream, closed tokens = stream.tokens ∧
      stream.unread = (Reader.ofTokens tokens).unread ∧
      stream.finish = (Reader.ofTokens tokens).finish := by
  suffices h : ∃ beyond, closed tokens =
      (Reader.ofTokens tokens).unread ++
        (Reader.ofTokens tokens).finish :: beyond by
    obtain ⟨beyond, hTokens⟩ := h
    exact ⟨⟨_, _, beyond, fun token hMem => (Reader.kind_ne_of_mem_unread hMem).1,
      Reader.kind_finishOf _⟩, hTokens, rfl, rfl⟩
  show ∃ beyond, closed tokens = List.takeWhile _ _ ++ Reader.finishOf _ :: beyond
  rw [closed]
  generalize tokens.filter (fun token => !token.kind.isComment) = meaningful
  cases hFind : meaningful.find? (·.kind = .endOfInput) with
  | some token =>
      obtain ⟨beyond, hTokens⟩ := eq_takeWhile_append_of_find? hFind
      rw [Reader.finishOf, hFind]
      cases hLast : meaningful.getLast? with
      | none =>
          rw [List.getLast?_eq_none_iff.1 hLast] at hFind
          cases hFind
      | some last =>
          by_cases hEnd : last.kind = .endOfInput
          · exact ⟨beyond, by simp only [if_pos hEnd]; exact hTokens⟩
          · refine ⟨beyond ++ [.atEnd last.position], ?_⟩
            simp only [if_neg hEnd]
            conv => lhs; rw [hTokens]
            rw [List.append_assoc]
            rfl
  | none =>
      refine ⟨[], ?_⟩
      rw [Reader.finishOf, hFind, takeWhile_eq_self_of_find? hFind]
      cases hLast : meaningful.getLast? with
      | none =>
          rw [List.getLast?_eq_none_iff.1 hLast]
          rfl
      | some last =>
          have hEnd : last.kind ≠ .endOfInput := by
            simpa using List.find?_eq_none.1 hFind last
              (List.mem_of_getLast? hLast)
          simp only [if_neg hEnd]

/-- The first end of the input in a stream is behind what is unread. -/
theorem Stream.findIdx?_tokens (stream : Stream) :
    stream.tokens.findIdx? (·.kind = .endOfInput) =
      some stream.unread.length := by
  rw [Stream.tokens, List.findIdx?_append, List.findIdx?_cons]
  have hNone : stream.unread.findIdx? (·.kind = .endOfInput) = none := by
    simpa using stream.kind_ne
  simp [hNone, stream.kind_finish]

/-! ## Sessions -/

section Session

variable {stream : Stream} {fuel : Nat}

/-- A new cursor has all of a stream before it. -/
theorem at_ofTokens {tokens : List Token} (h : closed tokens = stream.tokens) :
    At stream stream.unread [] (ofTokens tokens) where
  tokens := congrArg List.toArray h
  place := ⟨[], rfl, rfl⟩
  errors := rfl
  events := nofun

/-- Fuel for tokens is enough for reading them, whatever is read. -/
theorem le_fuelFor {tokens : List Token} (h : closed tokens = stream.tokens) :
    8 * stream.unread.length + 16 ≤ fuelFor tokens := by
  have hLess := stream.length_unread_lt
  rw [fuelFor, h]
  omega

/-- A program reads to the end of the input. -/
theorem parse_reads (rest : List Token) (hFuel : 8 * rest.length + 11 ≤ fuel) :
    Reads stream (parse fuel) rest (Grammar.members false rest).reading := by
  have hSequence : Reads stream (sequence fuel false #[]) rest
      ((Grammar.members false rest).reading.map fun more =>
        #[] ++ more.toArray) := sequence_reads fuel false #[] rest hFuel
  have hParse : Reads stream (parse fuel) rest _ := hSequence.map
  rw [Grammar.Members.reading, Grammar.Reading.map_accept,
    Grammar.Reading.map_accept, Array.empty_append] at hParse
  exact hParse

theorem parse_ends (reader : Reader) (hFinish : reader.finish = stream.finish)
    (hFuel : 8 * reader.unread.length + 11 ≤ fuel) :
    Ends (At stream reader.unread reader.errors.toList) (parse fuel)
      (.ok reader.program.stmts) (At stream [] reader.program.errors) := by
  have hReads : Reads stream (parse fuel) reader.unread _ :=
    parse_reads reader.unread hFuel
  have hParse := hReads reader.errors.toList
  rw [Grammar.Members.reading, Grammar.members_rest_eq_nil, ← hFinish] at hParse
  exact hParse

/-- Where there is no expression the machine fails, and goes on where the
reader does. -/
theorem expression_ends (reader : Reader)
    (hFinish : reader.finish = stream.finish)
    (hFuel : 8 * reader.unread.length + 8 ≤ fuel) :
    ∃ result, result.toOption = reader.expression.1 ∧
      reader.expression.2.finish = stream.finish ∧
      Ends (At stream reader.unread reader.errors.toList)
        (attempt (expression fuel)) (.ok result) (At stream reader.expression.2.unread
          reader.expression.2.errors.toList) := by
  have hExpression : Reads stream (expression fuel) reader.unread _ :=
    expression_reads fuel reader.unread hFuel
  have hReads := (hExpression reader.errors.toList).attempt
  rw [Reader.expression]
  cases hOutcome : Grammar.expression reader.unread with
  | accept value rest h =>
      rw [hOutcome] at hReads
      refine ⟨.ok value, rfl, hFinish, ?_⟩
      simpa [Grammar.Outcome.reading, Grammar.Reading.result, Grammar.Reading.rest,
        Grammar.Reading.errors, Grammar.Reading.failures] using hReads
  | reject failure rest h =>
      rw [hOutcome] at hReads
      refine ⟨.error (), rfl, hFinish, ?_⟩
      simpa [Grammar.Outcome.reading, Grammar.Reading.result, Grammar.Reading.rest,
        Grammar.Reading.errors, Grammar.Reading.failures, Reader.report, hFinish]
        using hReads

/-- A session on a cursor is a session of a reader, and ends in front of
the end of the input. -/
theorem session_ends (hFuel : 8 * stream.unread.length + 11 ≤ fuel) (count : Nat)
    (reader : Reader) (hFinish : reader.finish = stream.finish) :
    Ends (At stream reader.unread reader.errors.toList) (session fuel count)
      (.ok ((reader.session count).1, (reader.session count).2.stmts))
      (At stream [] (reader.session count).2.errors) := by
  induction count generalizing reader with
  | zero =>
      apply Ends.of_suffix
      intro hSuffix
      have hLe := hSuffix.length_le
      have hReader : 8 * reader.unread.length + 11 ≤ fuel := by omega
      exact (parse_ends reader hFinish hReader).bind (.pure _)
  | succ count ih =>
      apply Ends.of_suffix
      intro hSuffix
      have hLe := hSuffix.length_le
      have hReader : 8 * reader.unread.length + 8 ≤ fuel := by omega
      obtain ⟨first, hFirst, hFinish', hEnds⟩ :=
        expression_ends reader hFinish hReader
      rw [Reader.session]
      simp only [← hFirst]
      exact hEnds.bind ((ih _ hFinish').bind (.pure _))

end Session

/-- **The cursor stays in its array and comes to the end.** Whatever the
tokens are, and however many expressions are read before the rest is read
as a program: reading ends, and does the same with all fuel that is enough;
every access on the way is in the array, and the cursor never stands behind
the first end of the input; each turn of a loop that collects statements
begins in front of that place and brings the cursor nearer to it; and that
is where the cursor stands at the end. What has been read is what a reader
reads. -/
theorem session_in_order (tokens : List Token) (count : Nat) :
    ∃ exprs stmts final last,
      (∀ spare, (session (fuelFor tokens + spare) count).run.run
        (ofTokens tokens) = some (.ok (exprs, stmts), final)) ∧
      (closed tokens).findIdx? (·.kind = .endOfInput) = some last ∧
      final.tokens = (closed tokens).toArray ∧ final.current = last ∧
      (∀ event ∈ final.events, event.Within (closed tokens).length last) ∧
      (Reader.ofTokens tokens).session count =
        (exprs, ⟨stmts, final.errors.toList⟩) := by
  obtain ⟨stream, hTokens, hUnread, hFinish⟩ := exists_stream tokens
  have hStart := at_ofTokens hTokens
  have hFuel : 8 * stream.unread.length + 11 ≤ fuelFor tokens := by
    have hLess := stream.length_unread_lt
    rw [fuelFor, hTokens]
    omega
  rw [hUnread] at hStart
  obtain ⟨final, hRun, hFinal⟩ := session_ends hFuel count
    (Reader.ofTokens tokens) hFinish.symm (ofTokens tokens) hStart
  refine ⟨((Reader.ofTokens tokens).session count).1,
    ((Reader.ofTokens tokens).session count).2.stmts, final,
    stream.unread.length, ?_, ?_, ?_, ?_, ?_, ?_⟩
  · intro spare
    exact session_extends count (Nat.le_add_right _ spare) _ _ hRun
  · rw [hTokens, stream.findIdx?_tokens]
  · rw [hFinal.tokens, hTokens]
  · exact hFinal.current
  · rw [hTokens]
    exact hFinal.events
  · rw [hFinal.errors]

-- An expression is wanted in front of `)`, which is left unread; then the
-- program is wanted there as well, and recovery passes over the parenthesis.
example :
    ((session 32 1).run.run (ofTokens [⟨.rightParen, ")", .start⟩])).map
      (fun outcome => (outcome.2.current, outcome.2.errors.size)) =
      some (1, 2) := by decide +kernel

end Cursor

end ImpFront
