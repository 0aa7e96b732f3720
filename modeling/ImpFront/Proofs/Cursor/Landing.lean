import Mathlib.Order.Nat
import ImpFront.Proofs.Cursor.Resumed

/-!
# Where recovery comes to a stop

Recovery passes over one token and then looks for a boundary: the end of the
input, a word that begins a statement, or a semicolon just passed. It stops
at the first one behind that token and at no other place. So it always gets
on, unless it is at the end, and it passes over the beginning of a statement
only if that is the very first token.

Here a place is a number, as it is for the cursor, and nothing is asked of
what the cursor has done before. The walk looks at two tokens, the one that
it has passed and the one that it comes to. It cannot tell where it will
stop, but there is a least boundary, and that is known before the walk
begins: at all places before it the walk goes on.

## Main results

* `boundary_succ_iff` — a boundary by the tokens on its two sides.
* `skip_stops`, `skip_goes_on` — one turn of the walk.
* `skip_lands` — the whole walk.
* `synchronize_lands` — recovery from any cursor.
-/

namespace ImpFront

open Token (Kind)
open Grammar (recover resume)

namespace Cursor

/-! ## Boundaries -/

/-- The words that a declaration or a statement begins with. -/
def statementWords : List Kind :=
  [.long, .double, .ifWord, .whileWord, .read, .write]

theorem beginsStatement_iff {kind : Kind} :
    kind.beginsStatement = true ↔ kind ∈ statementWords := by
  cases kind <;> decide

/-- At the place one statement ends or another one begins. -/
inductive Boundary (tokens : Array Token) : Nat → Prop
  /-- In front of an end of the input. -/
  | ending {place : Nat} {token : Token} (hToken : tokens[place]? = some token)
      (hKind : token.kind = .endOfInput) : Boundary tokens place
  /-- Behind a semicolon. -/
  | behind {index : Nat} {token : Token} (hToken : tokens[index]? = some token)
      (hKind : token.kind = .semicolon) : Boundary tokens (index + 1)
  /-- In front of a word that begins a statement. -/
  | before {place : Nat} {token : Token} (hToken : tokens[place]? = some token)
      (hKind : token.kind ∈ statementWords) : Boundary tokens place

/-- The tokens from a place on up to the next end of the input. -/
def unread (tokens : Array Token) (place : Nat) : List Token :=
  (tokens.toList.drop place).takeWhile (·.kind ≠ .endOfInput)

section Places

variable {tokens : Array Token} {index place landing : Nat}
  {passed token : Token}

theorem boundary_succ_iff (hPassed : tokens[index]? = some passed)
    (hToken : tokens[index + 1]? = some token)
    (hKind : token.kind ≠ .endOfInput) :
    Boundary tokens (index + 1) ↔
      passed.kind = .semicolon ∨ token.kind.beginsStatement = true := by
  rw [beginsStatement_iff]
  constructor
  · intro h
    cases h with
    | ending hOther hEnd =>
        cases hToken.symm.trans hOther
        exact absurd hEnd hKind
    | behind hOther hSemicolon =>
        cases hPassed.symm.trans hOther
        exact .inl hSemicolon
    | before hOther hWord =>
        cases hToken.symm.trans hOther
        exact .inr hWord
  · rintro (hSemicolon | hWord)
    · exact .behind hPassed hSemicolon
    · exact .before hToken hWord

/-- Where there is no boundary there is no end of the input. -/
theorem kind_ne_of_not_boundary (hToken : tokens[place]? = some token)
    (h : ¬Boundary tokens place) : token.kind ≠ .endOfInput :=
  fun hEnd => h (.ending hToken hEnd)

theorem drop_eq_cons (hToken : tokens[place]? = some token) :
    tokens.toList.drop place = token :: tokens.toList.drop (place + 1) := by
  rw [← Array.getElem?_toList] at hToken
  obtain ⟨hPlace, rfl⟩ := List.getElem?_eq_some_iff.1 hToken
  exact List.drop_eq_getElem_cons hPlace

theorem unread_of_end (hToken : tokens[place]? = some token)
    (hKind : token.kind = .endOfInput) : unread tokens place = [] := by
  rw [unread, drop_eq_cons hToken, List.takeWhile_cons_of_neg (by simp [hKind])]

theorem unread_of_ne (hToken : tokens[place]? = some token)
    (hKind : token.kind ≠ .endOfInput) :
    unread tokens place = token :: unread tokens (place + 1) := by
  rw [unread, drop_eq_cons hToken, List.takeWhile_cons_of_pos (by simp [hKind]),
    unread]

/-- Behind a place that is no boundary the next boundary is the same. -/
theorem isLeast_succ (h : ¬Boundary tokens place)
    (hLeast : IsLeast {other | place ≤ other ∧ Boundary tokens other} landing) :
    IsLeast {other | place + 1 ≤ other ∧ Boundary tokens other} landing := by
  obtain ⟨⟨hPlace, hBoundary⟩, hLower⟩ := hLeast
  have hNe : place ≠ landing := by
    rintro rfl
    exact h hBoundary
  refine ⟨⟨Nat.lt_of_le_of_ne hPlace hNe, hBoundary⟩, ?_⟩
  intro other hOther
  exact hLower ⟨Nat.le_of_succ_le hOther.1, hOther.2⟩

end Places

/-! ## Cursors at a place -/

/-- The cursor stands at the place, whatever it has done before. -/
structure Stands (tokens : Array Token) (place : Nat)
    (errors : Array SyntaxError) (cursor : Cursor) : Prop where
  tokens : cursor.tokens = tokens
  current : cursor.current = place
  errors : cursor.errors = errors

section Steps

variable {tokens : Array Token} {index place landing : Nat}
  {errors : Array SyntaxError} {passed token : Token} {cursor : Cursor}

theorem Stands.of (cursor : Cursor) :
    Stands cursor.tokens cursor.current cursor.errors cursor := ⟨rfl, rfl, rfl⟩

theorem Stands.eq {final : Cursor}
    (h : Stands cursor.tokens place cursor.errors final) :
    final = { cursor with current := place, events := final.events } := by
  obtain ⟨tokens, current, errors, events⟩ := final
  cases h.tokens
  cases h.current
  cases h.errors
  rfl

theorem tokenAt_stands (hCursor : Stands tokens place errors cursor)
    (hToken : tokens[index]? = some token) :
    Ends (fun cursor' => cursor' = cursor) (tokenAt index) (.ok token)
      (Stands tokens place errors) := by
  have hRead : cursor.tokens[index]? = some token := by
    rw [hCursor.tokens, hToken]
  apply Ends.get
  rintro _ rfl
  rw [hRead]
  rintro cursor' rfl
  exact ⟨_, rfl, hCursor.tokens, hCursor.current, hCursor.errors⟩

theorem peek_stands (hToken : tokens[place]? = some token) :
    Ends (Stands tokens place errors) peek (.ok token)
      (Stands tokens place errors) := by
  apply Ends.get
  intro cursor hCursor
  exact tokenAt_stands hCursor (hCursor.current ▸ hToken)

theorem previous_stands (hToken : tokens[place - 1]? = some token) :
    Ends (Stands tokens place errors) previous (.ok token)
      (Stands tokens place errors) := by
  apply Ends.get
  intro cursor hCursor
  exact tokenAt_stands hCursor (hCursor.current ▸ hToken)

theorem isAtEnd_of_eq (hToken : tokens[place]? = some token)
    (hKind : token.kind = .endOfInput) :
    Ends (Stands tokens place errors) isAtEnd (.ok true)
      (Stands tokens place errors) := by
  refine (peek_stands hToken).bind ?_
  rw [decide_eq_true hKind]
  exact .pure true

theorem isAtEnd_of_ne (hToken : tokens[place]? = some token)
    (hKind : token.kind ≠ .endOfInput) :
    Ends (Stands tokens place errors) isAtEnd (.ok false)
      (Stands tokens place errors) := by
  refine (peek_stands hToken).bind ?_
  rw [decide_eq_false hKind]
  exact .pure false

theorem step_stands :
    Ends (Stands tokens place errors) step (.ok ())
      (Stands tokens (place + 1) errors) := by
  intro cursor hCursor
  exact ⟨_, rfl, hCursor.tokens, congrArg (· + 1) hCursor.current,
    hCursor.errors⟩

theorem advance_of_ne (hToken : tokens[place]? = some token)
    (hKind : token.kind ≠ .endOfInput) :
    Ends (Stands tokens place errors) advance (.ok token)
      (Stands tokens (place + 1) errors) :=
  (isAtEnd_of_ne hToken hKind).bind (step_stands.bind (previous_stands hToken))

/-- At an end of the input the token in front of it is read once more, or at
the very beginning the end itself. -/
theorem exists_advance_of_eq (hToken : tokens[place]? = some token)
    (hKind : token.kind = .endOfInput) :
    ∃ other, Ends (Stands tokens place errors) advance (.ok other)
      (Stands tokens place errors) := by
  have hPlace : place < tokens.size := (Array.getElem?_eq_some_iff.1 hToken).1
  have hOther : tokens[place - 1]? = some tokens[place - 1] :=
    Array.getElem?_eq_getElem (Nat.lt_of_le_of_lt (Nat.sub_le place 1) hPlace)
  exact ⟨_, (isAtEnd_of_eq hToken hKind).bind (previous_stands hOther)⟩

/-! ## The walk -/

theorem skip_of_end {fuel : Nat} (hToken : tokens[place]? = some token)
    (hKind : token.kind = .endOfInput) :
    Ends (Stands tokens place errors) (skip (fuel + 1)) (.ok ())
      (Stands tokens place errors) :=
  (isAtEnd_of_eq hToken hKind).bind (.pure ())

/-- At a boundary the walk stops. -/
theorem skip_stops {fuel : Nat} (hPassed : tokens[index]? = some passed)
    (hToken : tokens[index + 1]? = some token)
    (hBoundary : Boundary tokens (index + 1)) :
    Ends (Stands tokens (index + 1) errors) (skip (fuel + 1)) (.ok ())
      (Stands tokens (index + 1) errors) := by
  by_cases hEnd : token.kind = .endOfInput
  · exact skip_of_end hToken hEnd
  rw [boundary_succ_iff hPassed hToken hEnd] at hBoundary
  refine (isAtEnd_of_ne hToken hEnd).bind ((previous_stands hPassed).bind ?_)
  by_cases hSemicolon : passed.kind = .semicolon
  · rw [if_pos hSemicolon]
    exact .pure ()
  · rw [if_neg hSemicolon]
    refine (peek_stands hToken).bind ?_
    rw [if_pos (hBoundary.resolve_left hSemicolon)]
    exact .pure ()

/-- At any other place the walk passes over one token more. -/
theorem skip_goes_on {fuel : Nat} {result : Except Unit Unit}
    {after : Cursor → Prop} (hPassed : tokens[index]? = some passed)
    (hToken : tokens[index + 1]? = some token)
    (hBoundary : ¬Boundary tokens (index + 1))
    (hRest : Ends (Stands tokens (index + 2) errors) (skip fuel) result after) :
    Ends (Stands tokens (index + 1) errors) (skip (fuel + 1)) result after := by
  have hEnd := kind_ne_of_not_boundary hToken hBoundary
  rw [boundary_succ_iff hPassed hToken hEnd, not_or] at hBoundary
  refine (isAtEnd_of_ne hToken hEnd).bind ((previous_stands hPassed).bind ?_)
  rw [if_neg hBoundary.1]
  refine (peek_stands hToken).bind ?_
  rw [if_neg hBoundary.2]
  exact (advance_of_ne hToken hEnd).bind hRest

theorem resume_stops (hPassed : tokens[index]? = some passed)
    (hToken : tokens[index + 1]? = some token)
    (hBoundary : Boundary tokens (index + 1)) :
    resume passed (unread tokens (index + 1)) = unread tokens (index + 1) := by
  by_cases hEnd : token.kind = .endOfInput
  · rw [unread_of_end hToken hEnd, resume]
  · rw [boundary_succ_iff hPassed hToken hEnd] at hBoundary
    rw [unread_of_ne hToken hEnd, resume, if_pos (by simpa using hBoundary)]

theorem resume_goes_on (hPassed : tokens[index]? = some passed)
    (hToken : tokens[index + 1]? = some token)
    (hBoundary : ¬Boundary tokens (index + 1)) :
    resume passed (unread tokens (index + 1)) =
      resume token (unread tokens (index + 2)) := by
  have hEnd := kind_ne_of_not_boundary hToken hBoundary
  rw [boundary_succ_iff hPassed hToken hEnd] at hBoundary
  rw [unread_of_ne hToken hEnd, resume, if_neg (by simpa using hBoundary)]

/-- The walk ends at the first boundary, on the array as on the list. -/
theorem skip_lands {fuel : Nat} (hPassed : tokens[index]? = some passed)
    (hLeast : IsLeast {place | index + 1 ≤ place ∧ Boundary tokens place}
      landing)
    (hSize : landing < tokens.size) (hFuel : landing ≤ index + fuel) :
    Ends (Stands tokens (index + 1) errors) (skip fuel) (.ok ())
        (Stands tokens landing errors) ∧
      resume passed (unread tokens (index + 1)) = unread tokens landing := by
  have hIndex : index + 1 ≤ landing := hLeast.1.1
  induction fuel generalizing index passed with
  | zero => omega
  | succ fuel ih =>
      obtain ⟨token, hToken⟩ : ∃ token, tokens[index + 1]? = some token :=
        ⟨_, Array.getElem?_eq_getElem (Nat.lt_of_le_of_lt hIndex hSize)⟩
      by_cases hBoundary : Boundary tokens (index + 1)
      · have hLanding : landing = index + 1 :=
          Nat.le_antisymm (hLeast.2 ⟨Nat.le_refl _, hBoundary⟩) hIndex
        rw [hLanding]
        exact ⟨skip_stops hPassed hToken hBoundary,
          resume_stops hPassed hToken hBoundary⟩
      · have hNext := isLeast_succ hBoundary hLeast
        obtain ⟨hSkip, hResume⟩ := ih hToken hNext (by omega) hNext.1.1
        exact ⟨skip_goes_on hPassed hToken hBoundary hSkip,
          (resume_goes_on hPassed hToken hBoundary).trans hResume⟩

/-! ## Recovery -/

/-- From a place in front of a token, recovery ends at the first boundary
behind it. -/
theorem recover_lands {fuel : Nat} (hToken : tokens[place]? = some token)
    (hKind : token.kind ≠ .endOfInput)
    (hLeast : IsLeast {other | place + 1 ≤ other ∧ Boundary tokens other}
      landing)
    (hSize : landing < tokens.size) (hFuel : landing ≤ place + fuel) :
    Ends (Stands tokens place errors) (synchronize fuel) (.ok ())
        (Stands tokens landing errors) ∧
      recover (unread tokens place) = unread tokens landing := by
  obtain ⟨hSkip, hResume⟩ := skip_lands hToken hLeast hSize hFuel
  rw [unread_of_ne hToken hKind]
  exact ⟨(advance_of_ne hToken hKind).bind hSkip, hResume⟩

theorem synchronize_of_end {fuel : Nat} (hToken : tokens[place]? = some token)
    (hKind : token.kind = .endOfInput) :
    Ends (Stands tokens place errors) (synchronize (fuel + 1)) (.ok ())
      (Stands tokens place errors) := by
  obtain ⟨_, hAdvance⟩ := exists_advance_of_eq hToken hKind
  exact hAdvance.bind (skip_of_end hToken hKind)

end Steps

/-- **Recovery lands on the next boundary.** From any cursor before the first
end of the input it moves on to the least place behind at which there is a
boundary, and the tokens that are left there are those that recovery leaves
of the tokens from the cursor on. It reports no errors; only what is recorded
of the way changes besides. At an end of the input not even the place
does. -/
theorem synchronize_lands (cursor : Cursor) :
    (∀ last, cursor.tokens.findIdx? (·.kind = .endOfInput) = some last →
      cursor.current < last →
        ∃ landing events,
          IsLeast {place | cursor.current + 1 ≤ place ∧
            Boundary cursor.tokens place} landing ∧
          (∀ spare,
            (synchronize (last - cursor.current + spare)).run.run cursor =
              some (.ok (),
                { cursor with current := landing, events := events })) ∧
          recover (unread cursor.tokens cursor.current) =
            unread cursor.tokens landing) ∧
      ∀ token, cursor.tokens[cursor.current]? = some token →
        token.kind = .endOfInput →
          ∃ events,
            (∀ spare, (synchronize (1 + spare)).run.run cursor =
              some (.ok (), { cursor with events := events })) ∧
            recover (unread cursor.tokens cursor.current) =
              unread cursor.tokens cursor.current := by
  constructor
  · intro last hLast hBefore
    obtain ⟨hSize, hFinish, hFirst⟩ :=
      Array.findIdx?_eq_some_iff_getElem.1 hLast
    have hEnd : Boundary cursor.tokens last :=
      .ending (Array.getElem?_eq_getElem hSize) (of_decide_eq_true hFinish)
    have hToken := Array.getElem?_eq_getElem (Nat.lt_trans hBefore hSize)
    have hKind : cursor.tokens[cursor.current].kind ≠ .endOfInput := by
      simpa using hFirst cursor.current hBefore
    obtain ⟨landing, hLeast⟩ : ∃ landing, IsLeast {place |
        cursor.current + 1 ≤ place ∧ Boundary cursor.tokens place} landing := by
      classical
      exact ⟨_, Nat.isLeast_find ⟨last, hBefore, hEnd⟩⟩
    have hLanding : landing ≤ last := hLeast.2 ⟨hBefore, hEnd⟩
    have hLess : landing < cursor.tokens.size :=
      Nat.lt_of_le_of_lt hLanding hSize
    have hFuel : landing ≤ cursor.current + (last - cursor.current) := by omega
    obtain ⟨hEnds, hRecover⟩ := recover_lands hToken hKind hLeast hLess hFuel
    obtain ⟨final, hRun, hFinal⟩ :=
      hEnds.exists_final (fun _ _ => synchronize_extends) (.of cursor)
    exact ⟨landing, final.events, hLeast, hFinal.eq ▸ hRun, hRecover⟩
  · intro token hToken hKind
    obtain ⟨final, hRun, hFinal⟩ :=
      (synchronize_of_end hToken hKind).exists_final
        (fun _ _ => synchronize_extends) (.of cursor)
    refine ⟨final.events, hFinal.eq ▸ hRun, ?_⟩
    rw [unread_of_end hToken hKind, Grammar.recover_nil]

/-- In `) 1 ; x` recovery stops behind the semicolon, and there it stays if
the input has ended. -/
theorem synchronize_lands_behind_semicolon :
    let cursor : Cursor :=
      ⟨#[⟨.rightParen, ")", ⟨1, 1⟩⟩, ⟨.integer, "1", ⟨1, 3⟩⟩,
        ⟨.semicolon, ";", ⟨1, 5⟩⟩, ⟨.identifier, "x", ⟨1, 7⟩⟩,
        .atEnd ⟨1, 8⟩], 0, #[], #[]⟩
    cursor.tokens.findIdx? (·.kind = .endOfInput) = some 4 ∧
      (∃ events, (synchronize 4).run.run cursor =
        some (.ok (), { cursor with current := 3, events := events })) ∧
      ∃ events, (synchronize 1).run.run { cursor with current := 4 } =
        some (.ok (), { cursor with current := 4, events := events }) := by
  intro cursor
  have hLast : cursor.tokens.findIdx? (·.kind = .endOfInput) = some 4 := by
    cbv
  obtain ⟨landing, events, hLeast, hRun, -⟩ :=
    (synchronize_lands cursor).1 4 hLast (by decide)
  have hNot : ∀ place, place = 1 ∨ place = 2 →
      ¬Boundary cursor.tokens place := by
    rintro _ (rfl | rfl)
    · exact (boundary_succ_iff rfl rfl (by decide)).not.2 (by decide)
    · exact (boundary_succ_iff rfl rfl (by decide)).not.2 (by decide)
  have hLanding : landing = 3 := by
    have hAtMost : landing ≤ 3 := hLeast.2 ⟨by decide, .behind rfl rfl⟩
    have hAtLeast : 0 + 1 ≤ landing := hLeast.1.1
    have hBoundary := mt (hNot landing) (not_not.2 hLeast.1.2)
    omega
  obtain ⟨events', hStays, -⟩ :=
    (synchronize_lands { cursor with current := 4 }).2 (.atEnd ⟨1, 8⟩) rfl rfl
  exact ⟨hLast, ⟨events, hLanding ▸ hRun 0⟩, events', hStays 0⟩

end Cursor

end ImpFront
