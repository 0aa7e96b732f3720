import ImpFront.Proofs.Cursor.Session

/-!
# Reading goes on as if it began here

After some expressions have been read off the front, a cursor stands
somewhere in its array. What it reads from there on is what a new cursor
reads that is given only the tokens still ahead, up to the first end of the
input: neither what is behind the cursor nor what is beyond the end of the
input has any influence, and comments are not in the array at all.

The rules do look at the token in front of the cursor, and at the end of the
array they look at the last token where the next one is wanted. That none of
this can be told from outside is what `Reads` says: a rule is fixed by its
reading, and the reading knows the tokens ahead alone. So a rule that reads
on two streams does the same on both, wherever they have the same tokens
ahead.

## Main results

* `expressions_ends` — calls on one cursor, and on one reader.
* `Reads.runsAsNew` — a rule that reads does from here what it does anew.
* `resumed_reads_as_new` — expressions and programs behind any calls.
-/

namespace ImpFront

open Token (Kind)
open Grammar (Reading)

namespace Reader

/-- Read a number of expressions off the front, whether or not there are
any. -/
def expressions : Nat → Reader → List (Option Expr) × Reader
  | 0, reader => ([], reader)
  | count + 1, reader =>
    let (first, next) := reader.expression
    let (others, last) := next.expressions count
    (first :: others, last)

theorem finish_expression (reader : Reader) :
    reader.expression.2.finish = reader.finish := by
  rw [expression]
  split <;> rfl

theorem finish_expressions (count : Nat) (reader : Reader) :
    (reader.expressions count).2.finish = reader.finish := by
  induction count generalizing reader with
  | zero => rfl
  | succ count ih => exact (ih _).trans reader.finish_expression

/-- A new reader of program tokens and an end of the input holds just
them. -/
theorem ofTokens_append_finish {rest : List Token} {finish : Token}
    (hRest : ∀ token ∈ rest,
      token.kind ≠ .endOfInput ∧ token.kind.isComment = false)
    (hFinish : finish.kind = .endOfInput) :
    ofTokens (rest ++ [finish]) = ⟨rest, finish, #[]⟩ := by
  have hFilter : (rest ++ [finish]).filter (fun token =>
      !token.kind.isComment) = rest ++ [finish] := by
    refine List.filter_eq_self.2 (List.forall_mem_append.2 ⟨?_, ?_⟩)
    · intro token hMem
      rw [(hRest token hMem).2]
      rfl
    · rw [List.forall_mem_singleton, hFinish]
      rfl
  have hEnds : ∀ token ∈ rest, decide (token.kind ≠ .endOfInput) = true :=
    fun token hMem => decide_eq_true (hRest token hMem).1
  have hTake : (rest ++ [finish]).takeWhile (·.kind ≠ .endOfInput) = rest := by
    rw [List.takeWhile_append_of_pos hEnds, List.takeWhile_cons_of_neg
      (by simpa using hFinish), List.append_nil]
  have hFind : (rest ++ [finish]).find? (·.kind = .endOfInput) =
      some finish := by
    have hNone : rest.find? (·.kind = .endOfInput) = none := by
      simpa using fun token hMem => (hRest token hMem).1
    rw [List.find?_append, hNone, Option.none_or,
      List.find?_cons_of_pos (by simpa using hFinish)]
  rw [ofTokens, hFilter, hTake, finishOf, hFind]

end Reader

namespace Cursor

/-- Read a number of expressions, whether or not there are any. -/
def expressions (fuel : Nat) : Nat → Rule (List (Option Expr))
  | 0 => return []
  | count + 1 => do
    let first ← attempt (expression fuel)
    let others ← expressions fuel count
    return first.toOption :: others

/-- The tokens ahead of a cursor, up to and with the first end of the
input. -/
def ahead (cursor : Cursor) : List Token :=
  let rest := cursor.tokens.toList.drop cursor.current
  rest.take (rest.findIdx (·.kind = .endOfInput) + 1)

/-- From the cursor the rule does what it does from a new cursor on the tokens
ahead, whatever fuel there is beyond what is enough: it has the same result,
adds the same errors, and reads as many tokens. -/
def RunsAsNew {α : Type} (rule : Nat → Rule α) (fuel : Nat)
    (cursor : Cursor) : Prop :=
  ∃ result final fresh,
    (∀ spare, (rule (fuel + spare)).run.run cursor = some (result, final)) ∧
      (∀ spare, (rule (fuelFor cursor.ahead + spare)).run.run
        (ofTokens cursor.ahead) = some (result, fresh)) ∧
      final.errors = cursor.errors ++ fresh.errors ∧
      final.current = cursor.current + fresh.current

/-! ## Calls on one cursor -/

section Calls

variable {stream : Stream} {fuel : Nat}

theorem expressions_extends {fuel' : Nat} (count : Nat) (h : fuel ≤ fuel') :
    Extends (expressions fuel count) (expressions fuel' count) := by
  induction count with
  | zero => exact .refl _
  | succ count ih =>
      apply (expression_extends h).attempt.bind
      intro first
      exact ih.andThen

/-- Calls on a cursor do what calls on a reader do. -/
theorem expressions_ends (count : Nat) (reader : Reader)
    (hFinish : reader.finish = stream.finish)
    (hFuel : 8 * stream.unread.length + 8 ≤ fuel) :
    Ends (At stream reader.unread reader.errors.toList)
      (expressions fuel count) (.ok (reader.expressions count).1)
      (At stream (reader.expressions count).2.unread
        (reader.expressions count).2.errors.toList) := by
  induction count generalizing reader with
  | zero => exact .pure []
  | succ count ih =>
      apply Ends.of_suffix
      intro hSuffix
      have hLe := hSuffix.length_le
      have hReader : 8 * reader.unread.length + 8 ≤ fuel := by omega
      obtain ⟨first, hFirst, hFinish', hEnds⟩ :=
        expression_ends reader hFinish hReader
      rw [Reader.expressions]
      simp only [← hFirst]
      exact hEnds.bind ((ih _ hFinish').bind (.pure _))

end Calls

/-! ## Rules that read -/

section Reads

variable {α : Type} {stream : Stream} {rest : List Token} {fuel : Nat}

/-- A rule that ends with enough fuel has this one end with all fuel that is
enough. -/
theorem Ends.exists_final {before after : Cursor → Prop}
    {rule : Nat → Rule α} {result : Except Unit α} {cursor : Cursor}
    (hExtends : ∀ fuel fuel', fuel ≤ fuel' → Extends (rule fuel) (rule fuel'))
    (hEnds : Ends before (rule fuel) result after) (hCursor : before cursor) :
    ∃ final, (∀ spare,
        (rule (fuel + spare)).run.run cursor = some (result, final)) ∧
      after final := by
  obtain ⟨final, hRun, hFinal⟩ := hEnds cursor hCursor
  refine ⟨final, fun spare => ?_, hFinal⟩
  exact hExtends _ _ (Nat.le_add_right fuel spare) cursor _ hRun

/-- The tokens ahead of a cursor are those before it and the end of the
input. -/
theorem At.ahead {errors : List SyntaxError} {cursor : Cursor}
    (h : At stream rest errors cursor) :
    cursor.ahead = rest ++ [stream.finish] := by
  obtain ⟨read, hUnread, hCurrent⟩ := h.place
  have hDrop : cursor.tokens.toList.drop cursor.current =
      rest ++ stream.finish :: stream.beyond := by
    rw [h.tokens, hCurrent, Stream.tokens, hUnread, List.append_assoc,
      List.drop_left]
  have hRest : ∀ token ∈ rest, ¬token.kind = .endOfInput :=
    fun token hMem => stream.kind_ne token (h.suffix.mem hMem)
  have hIndex : (rest ++ stream.finish :: stream.beyond).findIdx
      (·.kind = .endOfInput) = rest.length := by
    rw [List.findIdx_append, List.findIdx_eq_length.2 (by simpa using hRest),
      if_neg (Nat.lt_irrefl _), List.findIdx_cons,
      decide_eq_true stream.kind_finish, cond_true, Nat.zero_add]
  rw [Cursor.ahead, hDrop, hIndex, List.take_length_add_append]
  rfl

/-- A new reader of the tokens ahead holds just those before the cursor. -/
theorem At.ofTokens_ahead {errors : List SyntaxError} {cursor : Cursor}
    (h : At stream rest errors cursor)
    (hComments : ∀ token ∈ rest, token.kind.isComment = false) :
    Reader.ofTokens cursor.ahead = ⟨rest, stream.finish, #[]⟩ := by
  rw [h.ahead]
  refine Reader.ofTokens_append_finish (fun token hMem => ?_) stream.kind_finish
  exact ⟨stream.kind_ne token (h.suffix.mem hMem), hComments token hMem⟩

/-- A rule that reads on every stream with the tokens ahead does from a
cursor what it does from a new one. -/
theorem Reads.runsAsNew {rule : Nat → Rule α} {reading : Reading α}
    {need : Nat} {errors : List SyntaxError} {cursor : Cursor}
    (hExtends : ∀ fuel fuel', fuel ≤ fuel' → Extends (rule fuel) (rule fuel'))
    (hReads : ∀ (stream : Stream) fuel, 8 * rest.length + need ≤ fuel →
      Reads stream (rule fuel) rest reading) (hNeed : need ≤ 16)
    (hCursor : At stream rest errors cursor)
    (hComments : ∀ token ∈ rest, token.kind.isComment = false)
    (hFuel : 8 * rest.length + need ≤ fuel) : RunsAsNew rule fuel cursor := by
  obtain ⟨anew, hTokens, hUnread, hFinish⟩ := exists_stream cursor.ahead
  simp only [hCursor.ofTokens_ahead hComments] at hUnread hFinish
  have hStart := at_ofTokens hTokens
  have hEnough := le_fuelFor hTokens
  rw [hUnread] at hStart hEnough
  obtain ⟨final, hRun, hFinal⟩ :=
    (hReads stream fuel hFuel errors).exists_final hExtends hCursor
  obtain ⟨fresh, hFresh, hLast⟩ :=
    (hReads anew (fuelFor cursor.ahead) (by omega) []).exists_final
      hExtends hStart
  have hBefore := hCursor.current
  have hAfter := hFinal.current
  have hMoved := hLast.current
  refine ⟨reading.result, final, fresh, hRun, hFresh, ?_, ?_⟩
  · apply Array.toList_inj.1
    rw [Array.toList_append, hFinal.errors, hLast.errors, hCursor.errors,
      List.nil_append, hFinish]
  · rw [hUnread] at hMoved
    omega

end Reads

/-- **Reading goes on as if it began here.** Take any tokens, and read any
number of expressions off them, whether or not there are any. Then the cursor
stands in the array of all tokens but the comments; and from there a program,
and as well one more expression, is read as from a new cursor that has only
the tokens ahead up to the first end of the input: with the same result, with
the same errors behind those found before, and over as many tokens. The
reader is then, but for its errors, a new reader of the tokens ahead. -/
theorem resumed_reads_as_new (tokens : List Token) (count : Nat) :
    ∃ exprs cursor reader,
      (∀ spare, (expressions (fuelFor tokens + spare) count).run.run
        (ofTokens tokens) = some (.ok exprs, cursor)) ∧
      cursor.tokens = (closed tokens).toArray ∧
      RunsAsNew parse (fuelFor tokens) cursor ∧
      RunsAsNew expression (fuelFor tokens) cursor ∧
      (Reader.ofTokens tokens).expressions count = (exprs, reader) ∧
      reader = { Reader.ofTokens cursor.ahead with errors := cursor.errors } ∧
      reader.program =
        ⟨(Program.ofTokens cursor.ahead).stmts,
          cursor.errors.toList ++ (Program.ofTokens cursor.ahead).errors⟩ ∧
      reader.expression.1 = (Reader.ofTokens cursor.ahead).expression.1 := by
  obtain ⟨stream, hTokens, hUnread, hFinish⟩ := exists_stream tokens
  have hStart := at_ofTokens hTokens
  have hEnough := le_fuelFor hTokens
  have hFuel : 8 * stream.unread.length + 8 ≤ fuelFor tokens := by omega
  rw [hUnread] at hStart
  obtain ⟨cursor, hRun, hCursor⟩ :=
    (expressions_ends count (Reader.ofTokens tokens) hFinish.symm
      hFuel).exists_final (fun _ _ => expressions_extends count) hStart
  have hSame := (Reader.ofTokens tokens).finish_expressions count
  generalize hReader : (Reader.ofTokens tokens).expressions count = calls
    at hRun hCursor hSame
  obtain ⟨exprs, reader⟩ := calls
  dsimp only at hRun hCursor hSame
  have hComments : ∀ token ∈ reader.unread, token.kind.isComment = false := by
    intro token hMem
    have hToken := hCursor.suffix.mem hMem
    rw [hUnread] at hToken
    exact (Reader.kind_ne_of_mem_unread hToken).2
  have hLe := hCursor.suffix.length_le
  have hNew := hCursor.ofTokens_ahead hComments
  have hErrors : reader.errors = cursor.errors :=
    Array.toList_inj.1 hCursor.errors.symm
  refine ⟨exprs, cursor, reader, hRun, ?_, ?_, ?_, rfl, ?_, ?_, ?_⟩
  · rw [hCursor.tokens, hTokens]
  · exact Reads.runsAsNew (fun _ _ => parse_extends)
      (fun stream fuel => parse_reads reader.unread) (by decide) hCursor
      hComments (by omega)
  · exact Reads.runsAsNew (fun _ _ => expression_extends)
      (fun stream fuel => expression_reads fuel reader.unread) (by decide)
      hCursor hComments (by omega)
  · rw [hNew, hFinish, ← hSame, ← hErrors]
  · rw [Program.ofTokens, hNew, hFinish, ← hSame, ← hErrors]
    rfl
  · rw [hNew]
    unfold Reader.expression
    cases Grammar.expression reader.unread <;> rfl

end Cursor

end ImpFront
