import ImpFront.Proofs.Cursor.Machine

/-!
# What the steps of the cursor do

`Ends before rule result after` says that from every cursor of one sort the
rule comes to an end, with the result, and at a cursor of another sort. So
it says in particular that the fuel is enough and that no access leaves the
array.

The cursors that occur are those on a stream: tokens, an end of the input,
and whatever stands behind it. `At stream rest errors` describes a cursor
that has `rest` before it up to the end of the input, and whose history is
in order: each access lay in the array, no place was behind the first end
of the input, and each turn of a loop has moved the cursor on.

## Main results

* `Ends.bind`, `Ends.bind_error`, `Ends.attempt` — how rules are put
  together.
* `advance_cons`, `check_at`, `matchAny_of_mem`, `consume_of_eq` — the
  steps, one by one.
* `synchronize_at` — recovery on the array is recovery on the list.
-/

namespace ImpFront

open Token (Kind)
open Grammar (recover resume)

/-- What may be done on an array of the given size whose first end of the
input is at `last`: all accesses are in the array, the end of the input is
never passed, and each turn of a loop comes nearer to it. -/
def Event.Within (size last : Nat) : Event → Prop
  | access place index => place ≤ last ∧ index < size
  | move place => place ≤ last
  | turn before after => before < after ∧ after ≤ last

namespace Cursor

/-! ## Rules that end -/

section Ends

variable {α β : Type} {before between after : Cursor → Prop}
  {rule : Rule α} {result : Except Unit α}

/-- From every cursor as `before` says, the rule ends with the result, at a
cursor as `after` says. -/
def Ends (before : Cursor → Prop) (rule : Rule α) (result : Except Unit α)
    (after : Cursor → Prop) : Prop :=
  ∀ cursor, before cursor →
    ∃ cursor', rule.run.run cursor = some (result, cursor') ∧ after cursor'

theorem Ends.mono {before' after' : Cursor → Prop}
    (h : Ends before rule result after)
    (hBefore : ∀ cursor, before' cursor → before cursor)
    (hAfter : ∀ cursor, after cursor → after' cursor) :
    Ends before' rule result after' := by
  intro cursor hCursor
  obtain ⟨cursor', hRun, hCursor'⟩ := h cursor (hBefore cursor hCursor)
  exact ⟨cursor', hRun, hAfter cursor' hCursor'⟩

theorem Ends.pure (value : α) :
    Ends before (Pure.pure value : Rule α) (.ok value) before := by
  intro cursor hCursor
  exact ⟨cursor, rfl, hCursor⟩

/-- A rule behind a rule that accepts. -/
theorem Ends.bind {value : α} {next : α → Rule β} {result : Except Unit β}
    (hRule : Ends before rule (.ok value) between)
    (hNext : Ends between (next value) result after) :
    Ends before (rule >>= next) result after := by
  intro cursor hCursor
  obtain ⟨cursor', hRun, hCursor'⟩ := hRule cursor hCursor
  obtain ⟨cursor'', hRun', hCursor''⟩ := hNext cursor' hCursor'
  refine ⟨cursor'', ?_, hCursor''⟩
  rw [ExceptT.run_bind, StateT.run_bind, hRun]
  exact hRun'

/-- Behind a rule that fails nothing is done. -/
theorem Ends.bind_error {next : α → Rule β}
    (hRule : Ends before rule (.error ()) after) :
    Ends before (rule >>= next) (.error ()) after := by
  intro cursor hCursor
  obtain ⟨cursor', hRun, hCursor'⟩ := hRule cursor hCursor
  refine ⟨cursor', ?_, hCursor'⟩
  rw [ExceptT.run_bind, StateT.run_bind, hRun]
  rfl

theorem Ends.attempt (hRule : Ends before rule result after) :
    Ends before (attempt rule) (.ok result) after := by
  intro cursor hCursor
  obtain ⟨cursor', hRun, hCursor'⟩ := hRule cursor hCursor
  refine ⟨cursor', ?_, hCursor'⟩
  show (rule.run >>= fun result => Pure.pure (Except.ok result)).run cursor = _
  rw [StateT.run_bind, hRun]
  rfl

/-- A rule that goes by what the cursor is. -/
theorem Ends.get {next : Cursor → Rule β} {result : Except Unit β}
    (hNext : ∀ cursor, before cursor →
      Ends (fun cursor' => cursor' = cursor) (next cursor) result after) :
    Ends before (MonadState.get >>= next) result after := by
  intro cursor hCursor
  exact hNext cursor hCursor cursor rfl

end Ends

/-! ## Cursors on a stream -/

/-- Tokens up to the first end of the input, and what is behind it. -/
structure Stream where
  unread : List Token
  finish : Token
  beyond : List Token
  kind_ne : ∀ token ∈ unread, token.kind ≠ .endOfInput
  kind_finish : finish.kind = .endOfInput

namespace Stream

/-- All tokens of a stream. -/
def tokens (stream : Stream) : List Token :=
  stream.unread ++ stream.finish :: stream.beyond

/-- The token at a cursor that has `rest` before it. -/
def front (stream : Stream) (rest : List Token) : Token :=
  rest.head?.getD stream.finish

end Stream

/-- A cursor that has `rest` before it up to the end of the input. -/
structure At (stream : Stream) (rest : List Token) (errors : List SyntaxError)
    (cursor : Cursor) : Prop where
  tokens : cursor.tokens = stream.tokens.toArray
  place : ∃ read, stream.unread = read ++ rest ∧ cursor.current = read.length
  errors : cursor.errors.toList = errors
  events : ∀ event ∈ cursor.events,
    event.Within stream.tokens.length stream.unread.length

section Steps

variable {stream : Stream} {rest : List Token} {errors : List SyntaxError}
  {token : Token} {cursor : Cursor}

theorem At.suffix (h : At stream rest errors cursor) : rest <:+ stream.unread := by
  obtain ⟨read, hUnread, _⟩ := h.place
  exact ⟨read, hUnread.symm⟩

/-- The tokens before a cursor are the last ones of the stream. -/
theorem Ends.of_suffix {α : Type} {rule : Rule α} {result : Except Unit α}
    {after : Cursor → Prop}
    (h : rest <:+ stream.unread → Ends (At stream rest errors) rule result after) :
    Ends (At stream rest errors) rule result after :=
  fun cursor hCursor => h hCursor.suffix cursor hCursor

theorem At.current (h : At stream rest errors cursor) :
    cursor.current + rest.length = stream.unread.length := by
  obtain ⟨read, hUnread, hCurrent⟩ := h.place
  rw [hUnread, hCurrent, List.length_append]

theorem Stream.length_unread_lt (stream : Stream) :
    stream.unread.length < stream.tokens.length := by
  rw [Stream.tokens, List.length_append, List.length_cons]
  omega

/-- Something more happens that is in order. -/
theorem At.record (event : Event) (h : At stream rest errors cursor)
    (hEvent : event.Within stream.tokens.length stream.unread.length) :
    At stream rest errors
      { cursor with events := cursor.events.push event } where
  tokens := h.tokens
  place := h.place
  errors := h.errors
  events := by
    intro event' hMem
    rcases Array.mem_push.1 hMem with hMem | rfl
    · exact h.events event' hMem
    · exact hEvent

theorem record_at (event : Event)
    (hEvent : event.Within stream.tokens.length stream.unread.length) :
    Ends (At stream rest errors) (record event) (.ok ())
      (At stream rest errors) := by
  intro cursor hCursor
  exact ⟨_, rfl, hCursor.record event hEvent⟩

/-- An access to a token that is there. -/
theorem tokenAt_at {index : Nat} (hCursor : At stream rest errors cursor)
    (hToken : stream.tokens[index]? = some token) :
    Ends (fun cursor' => cursor' = cursor) (tokenAt index) (.ok token)
      (At stream rest errors) := by
  have hIndex : index < stream.tokens.length :=
    (List.getElem?_eq_some_iff.1 hToken).1
  have hCurrent := hCursor.current
  have hEvent : Event.Within stream.tokens.length stream.unread.length
      (.access cursor.current index) := ⟨by omega, hIndex⟩
  have hRead : cursor.tokens[index]? = some token := by
    rw [hCursor.tokens, List.getElem?_toArray, hToken]
  apply Ends.get
  rintro _ rfl
  rw [hRead]
  exact ((record_at _ hEvent).bind (.pure token)).mono
    (fun _ h => h ▸ hCursor) fun _ h => h

/-- The token at the cursor is always there. -/
theorem peek_at :
    Ends (At stream rest errors) peek (.ok (stream.front rest))
      (At stream rest errors) := by
  apply Ends.get
  intro cursor hCursor
  apply tokenAt_at hCursor
  obtain ⟨read, hUnread, hCurrent⟩ := hCursor.place
  rw [hCurrent, Stream.tokens, hUnread, List.append_assoc,
    List.getElem?_append_right (Nat.le_refl _), Nat.sub_self]
  cases rest <;> rfl

theorem peek_cons :
    Ends (At stream (token :: rest) errors) peek (.ok token)
      (At stream (token :: rest) errors) := peek_at

/-- The token behind the next one is there as well. -/
theorem peekNext_cons :
    Ends (At stream (token :: rest) errors) peekNext (.ok (stream.front rest))
      (At stream (token :: rest) errors) := by
  apply Ends.get
  intro cursor hCursor
  apply tokenAt_at hCursor
  have hLess := stream.length_unread_lt
  have hCurrent := hCursor.current
  obtain ⟨read, hUnread, hRead⟩ := hCursor.place
  have hIndex : min (cursor.current + 1) (cursor.tokens.size - 1) =
      (read ++ [token]).length := by
    rw [hCursor.tokens, List.size_toArray, List.length_append, ← hRead]
    rw [List.length_cons] at hCurrent
    exact Nat.min_eq_left (by omega)
  have hTokens : stream.tokens =
      (read ++ [token]) ++ (rest ++ stream.finish :: stream.beyond) := by
    rw [Stream.tokens, hUnread]
    simp
  rw [hIndex, hTokens, List.getElem?_append_right (Nat.le_refl _), Nat.sub_self]
  cases rest <;> rfl

/-- The token in front of the cursor. -/
theorem previous_at (hToken : token :: rest <:+ stream.unread) :
    Ends (At stream rest errors) previous (.ok token)
      (At stream rest errors) := by
  apply Ends.get
  intro cursor hCursor
  apply tokenAt_at hCursor
  obtain ⟨read, hUnread⟩ := hToken
  have hCurrent := hCursor.current
  have hIndex : cursor.current - 1 = read.length := by
    rw [← hUnread, List.length_append, List.length_cons] at hCurrent
    omega
  rw [hIndex, Stream.tokens, ← hUnread, List.append_assoc,
    List.getElem?_append_right (Nat.le_refl _), Nat.sub_self]
  rfl

/-- Wherever the cursor is, some token is read in front of it. -/
theorem exists_previous_at :
    ∃ token, Ends (At stream rest errors) previous (.ok token)
      (At stream rest errors) := by
  have hLess := stream.length_unread_lt
  have hIndex : stream.unread.length - rest.length - 1 < stream.tokens.length := by
    omega
  refine ⟨stream.tokens[stream.unread.length - rest.length - 1], ?_⟩
  apply Ends.get
  intro cursor hCursor
  apply tokenAt_at hCursor
  have hCurrent := hCursor.current
  rw [List.getElem?_eq_some_iff]
  refine ⟨by omega, ?_⟩
  congr 1
  omega

theorem isAtEnd_nil :
    Ends (At stream [] errors) isAtEnd (.ok true) (At stream [] errors) := by
  have hEnd : (stream.front []).kind = .endOfInput := stream.kind_finish
  refine peek_at.bind ?_
  rw [decide_eq_true hEnd]
  exact .pure true

/-- In front of a token that is not the end of the input it is not the
end. -/
theorem isAtEnd_cons :
    Ends (At stream (token :: rest) errors) isAtEnd (.ok false)
      (At stream (token :: rest) errors) := by
  apply Ends.of_suffix
  intro hSuffix
  have hKind : (stream.front (token :: rest)).kind ≠ .endOfInput :=
    stream.kind_ne token (hSuffix.mem List.mem_cons_self)
  refine peek_at.bind ?_
  rw [decide_eq_false hKind]
  exact .pure false

theorem check_nil {kind : Kind} :
    Ends (At stream [] errors) (check kind) (.ok false)
      (At stream [] errors) :=
  isAtEnd_nil.bind (.pure false)

theorem check_of_eq {kind : Kind} (h : token.kind = kind) :
    Ends (At stream (token :: rest) errors) (check kind) (.ok true)
      (At stream (token :: rest) errors) := by
  refine isAtEnd_cons.bind (peek_cons.bind ?_)
  rw [decide_eq_true h]
  exact .pure true

theorem check_of_ne {kind : Kind} (h : token.kind ≠ kind) :
    Ends (At stream (token :: rest) errors) (check kind) (.ok false)
      (At stream (token :: rest) errors) := by
  refine isAtEnd_cons.bind (peek_cons.bind ?_)
  rw [decide_eq_false h]
  exact .pure false

theorem step_at :
    Ends (At stream (token :: rest) errors) step (.ok ())
      (At stream rest errors) := by
  intro cursor hCursor
  have hCurrent := hCursor.current
  obtain ⟨read, hUnread, hRead⟩ := hCursor.place
  have hMove : cursor.current + 1 ≤ stream.unread.length := by
    rw [List.length_cons] at hCurrent
    omega
  refine ⟨_, rfl, ⟨hCursor.tokens, ⟨read ++ [token], ?_, ?_⟩, hCursor.errors,
    (hCursor.record (.move (cursor.current + 1)) hMove).events⟩⟩
  · rw [hUnread, List.append_assoc]
    rfl
  · rw [List.length_append]
    exact congrArg (· + 1) hRead

theorem advance_cons :
    Ends (At stream (token :: rest) errors) advance (.ok token)
      (At stream rest errors) := by
  apply Ends.of_suffix
  intro hSuffix
  exact isAtEnd_cons.bind (step_at.bind (previous_at hSuffix))

theorem exists_advance_nil :
    ∃ token, Ends (At stream [] errors) advance (.ok token)
      (At stream [] errors) := by
  obtain ⟨token, hPrevious⟩ := exists_previous_at
  exact ⟨token, isAtEnd_nil.bind hPrevious⟩

theorem matchAny_nil {kinds : List Kind} :
    Ends (At stream [] errors) (matchAny kinds) (.ok false)
      (At stream [] errors) := by
  induction kinds with
  | nil => exact .pure false
  | cons kind kinds ih => exact check_nil.bind ih

theorem matchAny_of_mem {kinds : List Kind} (h : token.kind ∈ kinds) :
    Ends (At stream (token :: rest) errors) (matchAny kinds) (.ok true)
      (At stream rest errors) := by
  induction kinds with
  | nil => cases h
  | cons kind kinds ih =>
      by_cases hKind : token.kind = kind
      · exact (check_of_eq hKind).bind (advance_cons.bind (.pure true))
      · exact (check_of_ne hKind).bind (ih (List.mem_of_ne_of_mem hKind h))

theorem matchAny_of_not_mem {kinds : List Kind} (h : token.kind ∉ kinds) :
    Ends (At stream (token :: rest) errors) (matchAny kinds) (.ok false)
      (At stream (token :: rest) errors) := by
  induction kinds with
  | nil => exact .pure false
  | cons kind kinds ih =>
      exact (check_of_ne (List.ne_of_not_mem_cons h)).bind
        (ih (List.not_mem_of_not_mem_cons h))

theorem errorAt_at {α : Type} {fault : SyntaxFault} :
    Ends (At stream rest errors) (errorAt token fault : Rule α) (.error ())
      (At stream rest (errors ++ [⟨fault, token⟩])) := by
  intro cursor hCursor
  refine ⟨_, rfl, ⟨hCursor.tokens, hCursor.place, ?_, hCursor.events⟩⟩
  rw [Array.toList_push, hCursor.errors]

theorem error_at {α : Type} {fault : SyntaxFault} :
    Ends (At stream rest errors) (error fault : Rule α) (.error ())
      (At stream rest (errors ++ [⟨fault, stream.front rest⟩])) :=
  peek_at.bind errorAt_at

/-! ## Recovery -/

theorem skip_nil {fuel : Nat} (hFuel : 0 < fuel) :
    Ends (At stream [] errors) (skip fuel) (.ok ()) (At stream [] errors) := by
  cases fuel with
  | zero => cases hFuel
  | succ fuel =>
      rw [skip]
      exact isAtEnd_nil.bind (.pure ())

/-- Each turn passes over a token, and so there is fuel for all turns. -/
theorem skip_at {last : Token} {fuel : Nat} (hFuel : rest.length < fuel)
    (hLast : last :: rest <:+ stream.unread) :
    Ends (At stream rest errors) (skip fuel) (.ok ())
      (At stream (resume last rest) errors) := by
  induction fuel generalizing last rest with
  | zero => cases hFuel
  | succ fuel ih =>
      cases rest with
      | nil => exact skip_nil hFuel
      | cons token rest =>
          have hLess : rest.length < fuel := Nat.lt_of_succ_lt_succ hFuel
          rw [skip, resume]
          refine isAtEnd_cons.bind ((previous_at hLast).bind ?_)
          by_cases hSemicolon : last.kind = .semicolon
          · simp only [hSemicolon, if_true, Bool.true_or, decide_true]
            exact .pure ()
          rw [if_neg hSemicolon]
          refine peek_cons.bind ?_
          by_cases hBegins : token.kind.beginsStatement = true
          · rw [if_pos hBegins, if_pos (by simp [hBegins])]
            exact .pure ()
          · rw [if_neg hBegins, if_neg (by simp [hSemicolon, hBegins])]
            exact advance_cons.bind
              (ih hLess ((List.suffix_cons last _).trans hLast))

/-- Recovery on the array is recovery on the list. -/
theorem synchronize_at {fuel : Nat} (hFuel : rest.length < fuel) :
    Ends (At stream rest errors) (synchronize fuel) (.ok ())
      (At stream (recover rest) errors) := by
  cases rest with
  | nil =>
      obtain ⟨token, hAdvance⟩ := exists_advance_nil
      exact hAdvance.bind (skip_nil hFuel)
  | cons token rest =>
      apply Ends.of_suffix
      intro hSuffix
      have hLess : rest.length < fuel := Nat.lt_of_succ_lt hFuel
      exact advance_cons.bind (skip_at hLess hSuffix)

end Steps

end Cursor

end ImpFront
