import ImpFront.Proofs.Grammar.FirstFault
import ImpFront.Proofs.Grammar.Stability

/-!
# Errors come in the order of their tokens

Every error of a program is about one of its tokens or about the end of
the input. The errors are reported in the order of these tokens, and there
is no second one for any token. Only the end of the input may be reported
more than once, because each block that it leaves open misses its closing
brace there, and so it is reported at most once more than there are opening
braces.

A failure is behind another one if it found fewer tokens. What makes the
order is that recovery goes on behind the failure which it mends: it passes
over one token at least, if one is left. Where the failure was found at the
end of the input nothing is left, and all later ones are found there as
well.

## Main results

* `Ordered.after`, `Concluded.bind` — how ordered failures are put together.
* `passed_recover` — recovery passes what was found.
* `statement_concluded`, `members_ordered` — the rules that hold statements.
* `errors_in_order` — the errors of a program, and of one expression.
-/

namespace ImpFront

namespace Grammar

open Token (Kind)

/-! ## Failures behind failures -/

/-- What is found later has fewer tokens; or both times none is left. -/
def Passed (earlier later : List Token) : Prop :=
  later.length < earlier.length ∨ earlier = [] ∧ later = []

namespace Passed

variable {x y z : List Token}

theorem trans (hFirst : Passed x y) (hSecond : Passed y z) : Passed x z := by
  obtain hLess | ⟨rfl, rfl⟩ := hFirst
  · obtain hLess' | ⟨rfl, rfl⟩ := hSecond
    · exact .inl (Nat.lt_trans hLess' hLess)
    · exact .inl hLess
  · obtain hLess' | ⟨-, rfl⟩ := hSecond
    · cases hLess'
    · exact .inr ⟨rfl, rfl⟩

theorem of_suffix (h : Passed x y) (hSuffix : z <:+ y) : Passed x z := by
  obtain hLess | ⟨rfl, rfl⟩ := h
  · exact .inl (Nat.lt_of_le_of_lt hSuffix.length_le hLess)
  · exact .inr ⟨rfl, List.suffix_nil.1 hSuffix⟩

/-- If something is left then something was found. -/
theorem ne_nil (h : Passed x y) (hLeft : y ≠ []) : x ≠ [] := by
  rintro rfl
  obtain hLess | ⟨-, rfl⟩ := h
  · cases hLess
  · exact hLeft rfl

end Passed

/-- How many of the tokens open a block. -/
def openings (tokens : List Token) : Nat :=
  tokens.countP (·.kind = .leftBrace)

/-- How many of the failures are at the end of the input. -/
def countAtEnd (failures : List Failure) : Nat :=
  failures.countP (·.found = [])

theorem openings_le_of_suffix {tokens rest : List Token}
    (h : rest <:+ tokens) : openings rest ≤ openings tokens :=
  h.sublist.countP_le

theorem countAtEnd_append (first second : List Failure) :
    countAtEnd (first ++ second) = countAtEnd first + countAtEnd second :=
  List.countP_append

theorem countAtEnd_eq_zero {failures : List Failure}
    (h : ∀ failure ∈ failures, failure.found ≠ []) :
    countAtEnd failures = 0 := by
  refine List.countP_eq_zero.2 ?_
  intro failure hMem
  simpa using h failure hMem

/-- The failures of a reading of the tokens come one behind the other, and
what is left is behind them all. -/
structure Ordered {α : Type} (tokens : List Token) (reading : Reading α) :
    Prop where
  within : ∀ failure ∈ reading.failures, failure.found <:+ tokens
  ordered : reading.failures.Pairwise fun first second =>
    Passed first.found second.found
  behind : ∀ mended value rest, reading = .accept mended value rest →
    rest <:+ tokens ∧ ∀ failure ∈ mended, Passed failure.found rest
  few : countAtEnd reading.failures ≤ openings tokens + 1

/-- In addition, no failure that was mended is at the end of the input. -/
structure Concluded {α : Type} (tokens : List Token) (reading : Reading α) :
    Prop extends Ordered tokens reading where
  firm : ∀ mended value rest, reading = .accept mended value rest →
    countAtEnd mended = 0

section Combine

variable {α β : Type} {tokens rest : List Token} {failures : List Failure}
  {reading : Reading α}

/-- Ordered failures in front of a reading that goes on behind them. -/
theorem Ordered.after (h : Ordered rest reading) (hRest : rest <:+ tokens)
    (hWithin : ∀ failure ∈ failures, failure.found <:+ tokens)
    (hOrdered : failures.Pairwise fun first second =>
      Passed first.found second.found)
    (hBehind : ∀ failure ∈ failures, Passed failure.found rest)
    (hFew : countAtEnd failures + countAtEnd reading.failures ≤
      openings tokens + 1) :
    Ordered tokens (reading.after failures) where
  within := by
    rw [Reading.failures_after, List.forall_mem_append]
    exact ⟨hWithin, fun failure hMem => (h.within failure hMem).trans hRest⟩
  ordered := by
    rw [Reading.failures_after, List.pairwise_append]
    exact ⟨hOrdered, h.ordered, fun first hFirst second hSecond =>
      (hBehind first hFirst).of_suffix (h.within second hSecond)⟩
  behind := by
    intro mended value left hReading
    cases reading with
    | reject => cases hReading
    | accept mended' value' left' =>
        cases hReading
        obtain ⟨hLeft, hMended⟩ := h.behind _ _ _ rfl
        refine ⟨hLeft.trans hRest, List.forall_mem_append.2 ⟨?_, hMended⟩⟩
        exact fun failure hMem => (hBehind failure hMem).of_suffix hLeft
  few := by
    rw [Reading.failures_after, countAtEnd_append]
    exact hFew

/-- A rule that reads nothing and accepts. -/
theorem concluded_accept (value : α) (tokens : List Token) :
    Concluded tokens (.accept [] value tokens) := by
  refine ⟨⟨nofun, .nil, ?_, Nat.zero_le _⟩, ?_⟩
  · rintro _ _ _ ⟨⟩
    exact ⟨List.suffix_rfl, nofun⟩
  · rintro _ _ _ ⟨⟩
    rfl

theorem Concluded.of_suffix (h : Concluded rest reading)
    (hRest : rest <:+ tokens) : Concluded tokens reading where
  within failure hMem := (h.within failure hMem).trans hRest
  ordered := h.ordered
  behind mended value left hReading := by
    obtain ⟨hLeft, hMended⟩ := h.behind mended value left hReading
    exact ⟨hLeft.trans hRest, hMended⟩
  few := by
    have hOpenings := openings_le_of_suffix hRest
    have hFew := h.few
    omega
  firm := h.firm

theorem countAtEnd_outcome_le {bound : Nat} (outcome : Outcome α bound) :
    countAtEnd outcome.reading.failures ≤ 1 := by
  cases outcome with
  | accept => exact Nat.zero_le _
  | reject => exact List.countP_le_length

/-- A rule that mends nothing finds one failure at most. -/
theorem concluded_of_stable
    {rule : (tokens : List Token) → Outcome α tokens.length}
    (h : Stable True [] (fun tokens => (rule tokens).reading) rest)
    (hRest : rest <:+ tokens) : Concluded tokens (rule rest).reading := by
  have hFew := countAtEnd_outcome_le (rule rest)
  have hLeft := h.suffix
  refine .of_suffix ?_ hRest
  cases hRule : rule rest with
  | accept value left =>
      rw [hRule] at hLeft
      exact (concluded_accept value left).of_suffix hLeft
  | reject failure left =>
      rw [hRule] at hFew hLeft
      refine ⟨⟨?_, List.pairwise_singleton _ _, nofun, ?_⟩, nofun⟩
      · exact List.forall_mem_singleton.2 hLeft
      · exact Nat.le_trans hFew (Nat.le_add_left 1 _)

/-- A rule behind a rule. -/
theorem Concluded.bind {next : α → List Token → Reading β}
    (h : Concluded tokens reading)
    (hNext : ∀ mended value rest, reading = .accept mended value rest →
      Concluded rest (next value rest)) :
    Concluded tokens (reading.bind next) := by
  cases reading with
  | reject mended failure rest =>
      exact ⟨⟨h.within, h.ordered, nofun, h.few⟩, nofun⟩
  | accept mended value rest =>
      have hSecond := hNext mended value rest rfl
      obtain ⟨hRest, hBehind⟩ := h.behind mended value rest rfl
      have hFirm := h.firm mended value rest rfl
      refine ⟨hSecond.toOrdered.after hRest h.within h.ordered hBehind ?_, ?_⟩
      · have hOpenings := openings_le_of_suffix hRest
        have hFew := hSecond.few
        omega
      · intro mended' value' rest' hReading
        have hNextFirm := hSecond.firm
        change (next value rest).after mended = _ at hReading
        cases hNextReading : next value rest with
        | reject => rw [hNextReading] at hReading; cases hReading
        | accept later value rest =>
            rw [hNextReading] at hReading
            cases hReading
            rw [countAtEnd_append, hFirm, hNextFirm _ _ _ hNextReading]

theorem Ordered.map (f : α → β) (h : Ordered tokens reading) :
    Ordered tokens (reading.map f) := by
  cases reading with
  | reject => exact ⟨h.within, h.ordered, nofun, h.few⟩
  | accept mended value rest =>
      rw [Reading.map_accept]
      refine ⟨h.within, h.ordered, ?_, h.few⟩
      rintro _ _ _ ⟨⟩
      exact h.behind _ _ _ rfl

theorem Concluded.map (f : α → β) (h : Concluded tokens reading) :
    Concluded tokens (reading.map f) := by
  refine ⟨h.toOrdered.map f, ?_⟩
  cases reading with
  | reject => exact nofun
  | accept mended value rest =>
      rw [Reading.map_accept]
      rintro _ _ _ ⟨⟩
      exact h.firm _ _ _ rfl

end Combine

/-! ## Recovery -/

/-- Recovery passes what was found. -/
theorem passed_recover {mended : List Failure} {failure : Failure}
    {rest : List Token}
    (h : (Reading.reject mended failure rest : Reading Stmt).Stands) :
    Passed failure.found (recover rest) := by
  obtain hRest | ⟨token, hRest, -⟩ := h
  · rw [hRest]
    cases rest with
    | nil => exact .inr ⟨rfl, recover_nil⟩
    | cons token rest => exact .inl (length_recover_lt token rest)
  · rw [hRest]
    exact .inl (Nat.lt_succ_of_le (recover_suffix rest).length_le)

/-! ## Blocks and sequences -/

section Members

variable {token : Token} {rest : List Token} {inBlock : Bool}

/-- A block that is not closed misses its brace at the end of the input,
and has an opening brace of its own. -/
theorem concluded_block (hBlock : token.kind = .leftBrace)
    (h : Ordered rest (members true rest).reading) :
    Concluded (token :: rest) (statement (token :: rest)).reading := by
  rw [reading_statement_block hBlock]
  cases hMembers : members true rest with
  | mk stmts failures left =>
      rw [hMembers] at h
      obtain ⟨hLeft, hBehind⟩ := h.behind failures stmts left rfl
      have hRest := List.suffix_cons token rest
      have hWithin : ∀ failure ∈ failures, failure.found <:+ token :: rest :=
        fun failure hMem => (h.within failure hMem).trans hRest
      have hExpect := concluded_of_stable
        (expect_stable .rightBrace .blockClosing left) List.suffix_rfl
      have hClosing := hExpect.map fun _ => Stmt.block stmts
      show Concluded _ (Reading.after failures _)
      refine ⟨hClosing.toOrdered.after (hLeft.trans hRest) hWithin h.ordered
        hBehind ?_, ?_⟩
      · have hOpenings : openings (token :: rest) = openings rest + 1 := by
          simp [openings, hBlock]
        have hFew : countAtEnd failures ≤ openings rest + 1 := h.few
        have hOne := countAtEnd_outcome_le
          ((expect .rightBrace .blockClosing left).map
            fun _ => Stmt.block stmts)
        rw [reading_map] at hOne
        omega
      · intro mended value rest' hReading
        change ((expect .rightBrace .blockClosing left).reading.map
          fun _ => Stmt.block stmts).after failures = _ at hReading
        cases left with
        | nil => cases hReading
        | cons brace left =>
            have hFirm : countAtEnd failures = 0 :=
              countAtEnd_eq_zero fun failure hMem =>
                (hBehind failure hMem).ne_nil (List.cons_ne_nil brace left)
            by_cases hBrace : brace.kind = .rightBrace
            · rw [reading_expect_of_eq hBrace, Reading.map_accept] at hReading
              cases hReading
              rw [List.append_nil]
              exact hFirm
            · rw [reading_expect_of_ne hBrace] at hReading
              cases hReading

/-- A sequence goes on behind a member, or behind the failure of one. -/
theorem ordered_cons (hOpen : inBlock = true → token.kind ≠ .rightBrace)
    (h : Concluded (token :: rest) (declaration (token :: rest)).reading)
    (hLater : ∀ tokens, tokens.length < (token :: rest).length →
      Ordered tokens (members inBlock tokens).reading) :
    Ordered (token :: rest) (members inBlock (token :: rest)).reading := by
  have hStable := @declaration_stable [] (token :: rest)
  rw [reading_members_cons hOpen]
  cases hReading : (declaration (token :: rest)).reading with
  | accept mended stmt left =>
      have hLess := Attempt.length_lt_of_reading hReading
      rw [hReading] at h
      obtain ⟨hLeft, hBehind⟩ := h.behind mended stmt left rfl
      have hFirm := h.firm mended stmt left rfl
      have hNext := (hLater left hLess).map (stmt :: ·)
      refine hNext.after hLeft h.within h.ordered hBehind ?_
      have hOpenings := openings_le_of_suffix hLeft
      have hFew := hNext.few
      omega
  | reject mended failure left =>
      have hLeft := hStable.suffix_of_reject hReading
      have hStands := hStable.stands
      have hLess : (recover left).length < (token :: rest).length :=
        length_recover_lt_of_le (Nat.succ_pos _) hLeft.length_le
      rw [hReading] at h hStands
      have hPassed := passed_recover hStands
      have hRecover := (recover_suffix left).trans hLeft
      have hBehind : ∀ other ∈ mended ++ [failure],
          Passed other.found (recover left) := by
        refine List.forall_mem_append.2
          ⟨?_, List.forall_mem_singleton.2 hPassed⟩
        intro other hMem
        have hOrdered := (List.pairwise_append.1 h.ordered).2.2
        exact (hOrdered other hMem failure (List.mem_singleton_self _)).trans
          hPassed
      have hNext := hLater (recover left) hLess
      refine hNext.after hRecover h.within h.ordered hBehind ?_
      -- where tokens are left, every failure so far has found one
      by_cases hOver : recover left = []
      · rw [hOver, reading_members_nil]
        exact h.few
      · have hNone : countAtEnd (mended ++ [failure]) = 0 :=
          countAtEnd_eq_zero fun other hMem => (hBehind other hMem).ne_nil hOver
        have hOpenings := openings_le_of_suffix hRecover
        have hFew := hNext.few
        omega

end Members

/-! ## The rules -/

section Statement

mutual

theorem statement_concluded (tokens : List Token) :
    Concluded tokens (statement tokens).reading := by
  match tokens with
  | [] =>
      rw [reading_statement_nil, ← reading_expressionStatement_nil]
      exact concluded_of_stable (expressionStatement_stable []) List.suffix_rfl
  | token :: rest =>
      have hRest := List.suffix_cons token rest
      by_cases hRead : token.kind = .read
      · rw [reading_statement_read hRead]
        exact concluded_of_stable (readRest_stable rest) hRest
      by_cases hWrite : token.kind = .write
      · rw [reading_statement_write hWrite]
        exact concluded_of_stable (writeRest_stable rest) hRest
      by_cases hIf : token.kind = .ifWord
      · rw [reading_statement_if hIf]
        refine (concluded_of_stable (ifHead_stable rest) hRest).bind ?_
        intro mended condition rest' hReading
        have hLess := Outcome.length_lt_of_reading hReading
        exact branchesReading_concluded condition rest'
      by_cases hWhile : token.kind = .whileWord
      · rw [reading_statement_while hWhile]
        refine (concluded_of_stable (whileHead_stable rest) hRest).bind ?_
        intro mended condition rest' hReading
        have hLess := Outcome.length_lt_of_reading hReading
        exact (statement_concluded rest').map _
      by_cases hBlock : token.kind = .leftBrace
      · exact concluded_block hBlock (members_ordered true rest)
      rw [reading_statement_simple hRead hWrite hIf hWhile hBlock]
      exact concluded_of_stable (simple_stable _) List.suffix_rfl
termination_by (tokens.length, 0)

theorem branchesReading_concluded (condition : Expr) (tokens : List Token) :
    Concluded tokens (branchesReading condition tokens) := by
  refine (statement_concluded tokens).bind ?_
  intro mended thenPart rest hReading
  have hLess := Attempt.length_lt_of_reading hReading
  match rest with
  | [] => exact concluded_accept _ _
  | token :: rest' =>
      by_cases h : token.kind = .elseWord
      · have hLess' : rest'.length < tokens.length := Nat.lt_of_succ_lt hLess
        rw [elseReading, if_pos h]
        exact ((statement_concluded rest').map _).of_suffix
          (List.suffix_cons token rest')
      · rw [elseReading, if_neg h]
        exact concluded_accept _ _
termination_by (tokens.length, 1)

theorem declaration_concluded (tokens : List Token) :
    Concluded tokens (declaration tokens).reading := by
  match tokens with
  | [] =>
      rw [reading_declaration_nil, ← reading_statement_nil]
      exact statement_concluded []
  | token :: rest =>
      by_cases hType : token.kind = .long ∨ token.kind = .double
      · rw [reading_declaration_type hType]
        exact concluded_of_stable (declarationRest_stable token rest)
          (List.suffix_cons token rest)
      · obtain ⟨hLong, hDouble⟩ := not_or.1 hType
        rw [reading_declaration_statement hLong hDouble]
        exact statement_concluded (token :: rest)
termination_by (tokens.length, 1)

theorem members_ordered (inBlock : Bool) (tokens : List Token) :
    Ordered tokens (members inBlock tokens).reading := by
  match tokens with
  | [] =>
      rw [reading_members_nil]
      exact (concluded_accept _ _).toOrdered
  | token :: rest =>
      by_cases hClosing : inBlock = true ∧ token.kind = .rightBrace
      · obtain ⟨rfl, hKind⟩ := hClosing
        rw [reading_members_closing hKind]
        exact (concluded_accept _ _).toOrdered
      · refine ordered_cons (fun hBlock hKind => hClosing ⟨hBlock, hKind⟩)
          (declaration_concluded (token :: rest)) ?_
        intro later hLess
        exact members_ordered inBlock later
termination_by (tokens.length, 2)

end

end Statement

/-! ## The errors of a program -/

section Program

variable {tokens : List Token} {failure : Failure}

/-- The index of a failure is that of the token of its error. -/
theorem getElem?_index (h : failure.found <:+ programTokens tokens) :
    (inputTokens tokens)[failure.index (programTokens tokens)]? =
      some (failure.toError (Reader.ofTokens tokens).finish).token := by
  obtain ⟨read, hTokens⟩ := h
  have hIndex : failure.index (programTokens tokens) = read.length := by
    rw [Failure.index, ← hTokens, List.length_append, Nat.add_sub_cancel]
  rw [hIndex, inputTokens, ← hTokens, List.append_assoc]
  cases hFound : failure.found <;> simp [Failure.toError, hFound]

/-- A failure is at the end of the input if it found no token. -/
theorem index_eq_length_iff (h : failure.found <:+ tokens) :
    failure.index tokens = tokens.length ↔ failure.found = [] := by
  have hLen := h.length_le
  rw [Failure.index, ← List.length_eq_zero_iff]
  omega

end Program

end Grammar

namespace Reader

/-- Reading an expression adds one error, about a token that was not read
before, if there is none to be read, and otherwise no error. -/
theorem errors_expression (reader : Reader) :
    match reader.expression with
    | (some _, next) => next.errors = reader.errors
    | (none, next) =>
      ∃ error : SyntaxError, error.token ∈ reader.unread ++ [reader.finish] ∧
        next.errors = reader.errors.push error := by
  have hSuffix := (@Grammar.expression_stable [] reader.unread).suffix
  rw [expression]
  cases hRead : Grammar.expression reader.unread with
  | accept value rest => rfl
  | reject failure rest =>
      rw [hRead] at hSuffix
      obtain ⟨read, hUnread⟩ := hSuffix
      change read ++ failure.found = _ at hUnread
      refine ⟨failure.toError reader.finish, ?_, rfl⟩
      rw [← hUnread]
      cases hFound : failure.found <;> simp [Grammar.Failure.toError, hFound]

end Reader

namespace Grammar

/-- **Errors come in the order of their tokens.** The errors of a program
have the tokens at growing indices of the input, of which only the last
one, that of the end of the input, may come more than once: at most once
more than there are opening braces. And reading one expression, from
whatever has been read before, adds one error or none. -/
theorem errors_in_order (tokens : List Token) :
    (Program.ofTokens tokens).errors.map (fun error => some error.token) =
        (errorIndices tokens).map ((inputTokens tokens)[·]?) ∧
      (errorIndices tokens).Pairwise
        (fun i j => i < j ∨ i = j ∧ j = (programTokens tokens).length) ∧
      (errorIndices tokens).count (programTokens tokens).length ≤
        (programTokens tokens).countP (·.kind = .leftBrace) + 1 ∧
      ∀ reader : Reader,
        match reader.expression with
        | (some _, next) => next.errors = reader.errors
        | (none, next) =>
          ∃ error : SyntaxError,
            error.token ∈ reader.unread ++ [reader.finish] ∧
              next.errors = reader.errors.push error := by
  have hOrdered := members_ordered false (programTokens tokens)
  have hWithin : ∀ failure ∈ (members false (programTokens tokens)).failures,
      failure.found <:+ programTokens tokens := hOrdered.within
  refine ⟨?_, ?_, ?_, Reader.errors_expression⟩
  · rw [errors_ofTokens, errorIndices, List.map_map, List.map_map]
    exact List.map_congr_left fun failure hMem =>
      (getElem?_index (hWithin failure hMem)).symm
  · refine List.pairwise_map.2 (hOrdered.ordered.imp_of_mem ?_)
    intro first second hFirst hSecond hPassed
    have hFirstLen := (hWithin first hFirst).length_le
    have hSecondLen := (hWithin second hSecond).length_le
    obtain hLess | ⟨hNoneFirst, hNoneSecond⟩ := hPassed
    · left
      rw [Failure.index, Failure.index]
      omega
    · right
      simp [Failure.index, hNoneFirst, hNoneSecond]
  · have hCount : (errorIndices tokens).count (programTokens tokens).length =
        countAtEnd (members false (programTokens tokens)).failures := by
      rw [errorIndices, List.count, List.countP_map]
      refine List.countP_congr ?_
      intro failure hMem
      simpa using index_eq_length_iff (hWithin failure hMem)
    rw [hCount]
    exact hOrdered.few

end Grammar

end ImpFront
