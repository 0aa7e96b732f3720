import Mathlib.Data.List.Basic
import Mathlib.Data.List.TakeWhile
import ImpFront.Proofs.Grammar.Acceptance
import ImpFront.Proofs.Grammar.Stability

/-!
# Programs one behind the other

Where one program ends and another one begins, the whole comes to what the
two of them come to, statements and errors alike, also if both are broken.
For this the first one must not be missing anything at its end. If nothing
is wrong with it then it is not; and otherwise it is not if no error is
about the end of the input and the last token is a semicolon, since that is
where recovery stops at the latest. Moreover, an `else` at the beginning of
the second program would belong to the first one.

## Main results

* `members_append_of_contained` — sequences of statements.
* `ofTokens_append` — programs.
-/

namespace ImpFront

namespace Grammar

/-! ## Recovery at the last token -/

section Recovery

variable {tokens rest more : List Token}

/-- If there is a last token, it is a semicolon. -/
def SemicolonLast (tokens : List Token) : Prop :=
  ∀ last ∈ tokens.getLast?, last.kind = .semicolon

theorem SemicolonLast.of_suffix (h : SemicolonLast tokens)
    (hSuffix : rest <:+ tokens) : SemicolonLast rest := by
  obtain ⟨before, rfl⟩ := hSuffix
  intro last hMem
  exact h last (List.mem_getLast?_append_of_mem_getLast? hMem)

theorem resume_append_of_semicolonLast {previous : Token}
    (h : SemicolonLast (previous :: tokens)) (more : List Token) :
    resume previous (tokens ++ more) = resume previous tokens ++ more := by
  induction tokens generalizing previous with
  | nil =>
      have hKind : previous.kind = .semicolon := h previous rfl
      cases more with
      | nil => rfl
      | cons token more => simp [resume, hKind]
  | cons token rest ih =>
      have hRest := h.of_suffix (List.suffix_cons previous (token :: rest))
      rw [List.cons_append, resume, resume]
      split
      · rfl
      · exact ih hRest

/-- Recovery stops behind a semicolon at the end, if it comes that far. -/
theorem recover_append_of_semicolonLast (hNonempty : tokens ≠ [])
    (h : SemicolonLast tokens) (more : List Token) :
    recover (tokens ++ more) = recover tokens ++ more := by
  cases tokens with
  | nil => exact absurd rfl hNonempty
  | cons token rest => exact resume_append_of_semicolonLast h more

/-- A broken statement whose fault is about a token leaves the semicolon at
the end unread, since the only tokens that are passed over are constants. -/
theorem Stable.recover_append {atEnd : Prop}
    {rule : List Token → Reading Stmt} {mended : List Failure}
    {failure : Failure} (hRule : Stable atEnd more rule tokens)
    (hReject : rule tokens = .reject mended failure rest)
    (hFound : failure.found ≠ []) (hLast : SemicolonLast tokens) :
    recover (rest ++ more) = recover rest ++ more := by
  have hRest := hLast.of_suffix (hRule.suffix_of_reject hReject)
  refine recover_append_of_semicolonLast ?_ hRest more
  rintro rfl
  have hSuffix := hRule.suffix
  have hStands := hRule.stands
  rw [hReject] at hSuffix hStands
  obtain hNil | ⟨token, hToken, hConstant⟩ := hStands
  · exact hFound hNil
  · have hKind : token.kind = .semicolon :=
      hLast.of_suffix hSuffix token (by rw [Reading.left, hToken]; rfl)
    exact hConstant (by rw [constant?, hKind])

end Recovery

/-! ## Sequences -/

section Members

variable {inBlock : Bool} {token : Token} {rest rest' more : List Token}
  {mended : List Failure} {failure : Failure} {stmt : Stmt}

/-- Outside of blocks a closing brace ends nothing. -/
theorem outside_ne_rightBrace : false = true → token.kind ≠ .rightBrace :=
  fun h => absurd h Bool.false_ne_true

theorem members_of_accept
    (hOpen : inBlock = true → token.kind ≠ .rightBrace)
    (hReading : (declaration (token :: rest)).reading =
      .accept mended stmt rest') :
    members inBlock (token :: rest) =
      ⟨stmt :: (members inBlock rest').stmts,
        mended ++ (members inBlock rest').failures,
        (members inBlock rest').rest⟩ := by
  have hCons := @reading_members_cons token rest inBlock hOpen
  rw [hReading, Reading.mend, Members.reading, Members.reading,
    Reading.map_accept, Reading.after] at hCons
  injection hCons with hFailures hStmts hRest
  rw [← hFailures, ← hStmts, ← hRest]

theorem members_of_reject
    (hOpen : inBlock = true → token.kind ≠ .rightBrace)
    (hReading : (declaration (token :: rest)).reading =
      .reject mended failure rest') :
    members inBlock (token :: rest) =
      ⟨(members inBlock (recover rest')).stmts,
        mended ++ failure :: (members inBlock (recover rest')).failures,
        (members inBlock (recover rest')).rest⟩ := by
  have hCons := @reading_members_cons token rest inBlock hOpen
  rw [hReading, Reading.mend, Members.reading, Members.reading,
    Reading.after, List.append_assoc, List.singleton_append] at hCons
  injection hCons with hFailures hStmts hRest
  rw [← hFailures, ← hStmts, ← hRest]

/-- What nothing is wrong with does not begin with a closing brace. -/
theorem kind_ne_rightBrace_of_failures
    (h : (members false (token :: rest)).failures = []) :
    token.kind ≠ .rightBrace := by
  intro hKind
  have hProgram := isProgram_of_failures_eq_nil h
  generalize (members false (token :: rest)).stmts = stmts at hProgram
  generalize hTokens : token :: rest = tokens at hProgram
  cases hProgram with
  | nil => cases hTokens
  | cons hFirst _ =>
      obtain ⟨front, _, rfl, hBegins⟩ := hFirst.begins
      obtain ⟨rfl, _⟩ := List.cons.inj hTokens
      rw [hKind] at hBegins
      cases hBegins

/-- Recovery does not leave the tokens, and nothing in them closes the block
that they stand in, if they stand in one. -/
structure Contained (inBlock : Bool) (tokens : List Token) : Prop where
  semicolonLast : SemicolonLast tokens
  unclosed : inBlock = true → ∀ token ∈ tokens, token.kind ≠ .rightBrace

theorem Contained.of_suffix {tokens : List Token}
    (h : Contained inBlock tokens) (hSuffix : rest <:+ tokens) :
    Contained inBlock rest :=
  ⟨h.semicolonLast.of_suffix hSuffix,
    fun hIn token hMem => h.unclosed hIn token (hSuffix.subset hMem)⟩

/-- What is added behind a sequence is read as if it stood alone, in a block
and outside of blocks. -/
theorem members_append_of_contained {tokens : List Token}
    (hElse : NoElse more)
    (hFirm : ∀ failure ∈ (members false tokens).failures, failure.found ≠ [])
    (hEnd : (members false tokens).failures = [] ∨ Contained inBlock tokens) :
    members inBlock (tokens ++ more) =
      ⟨(members false tokens).stmts ++ (members inBlock more).stmts,
        (members false tokens).failures.map (·.onto more) ++
          (members inBlock more).failures,
        (members inBlock more).rest⟩ := by
  match tokens with
  | [] =>
      rw [List.nil_append, members_nil]
      rfl
  | token :: rest =>
      have hDecl : Stable (NoElse more) more
          (fun tokens => (declaration tokens).reading) (token :: rest) :=
        declaration_stable (token :: rest)
      have hOpen : inBlock = true → token.kind ≠ .rightBrace := by
        intro hIn
        obtain hNone | hContained := hEnd
        · exact kind_ne_rightBrace_of_failures hNone
        · exact hContained.unclosed hIn token List.mem_cons_self
      cases hReading : (declaration (token :: rest)).reading with
      | accept mended stmt rest' =>
          have hLess := Attempt.length_lt_of_reading hReading
          rw [members_of_accept outside_ne_rightBrace hReading] at hFirm hEnd ⊢
          obtain ⟨hMended, hFirm'⟩ := List.forall_mem_append.1 hFirm
          have hEnd' : (members false rest').failures = [] ∨
              Contained inBlock rest' :=
            hEnd.imp (fun h => (List.append_eq_nil_iff.1 h).2)
              fun h => h.of_suffix (hDecl.suffix_of_accept hReading)
          have hMore := hDecl.append_of_accept hReading hMended fun _ => hElse
          rw [List.cons_append] at hMore ⊢
          rw [members_of_accept hOpen hMore,
            members_append_of_contained hElse hFirm' hEnd']
          simp
      | reject mended failure rest' =>
          have hRest := hDecl.suffix_of_reject hReading
          have hLess : (recover rest').length < (token :: rest).length :=
            length_recover_lt_of_le (Nat.succ_pos _) hRest.length_le
          rw [members_of_reject outside_ne_rightBrace hReading] at hFirm hEnd ⊢
          rw [List.append_cons] at hFirm
          obtain ⟨hMended, hFirm'⟩ := List.forall_mem_append.1 hFirm
          have hFound : failure.found ≠ [] :=
            hMended failure (List.mem_append_right _ (List.mem_singleton_self _))
          -- with this failure the list of them is not empty
          have hContained : Contained inBlock (token :: rest) := by
            obtain hNone | h := hEnd
            · cases (List.append_eq_nil_iff.1 hNone).2
            · exact h
          have hEnd' :=
            hContained.of_suffix ((recover_suffix rest').trans hRest)
          have hMore := hDecl.append_of_reject hReading hMended
          rw [List.cons_append] at hMore ⊢
          rw [members_of_reject hOpen hMore,
            hDecl.recover_append hReading hFound hContained.semicolonLast,
            members_append_of_contained hElse hFirm' (.inr hEnd')]
          simp
termination_by tokens.length
decreasing_by all_goals exact hLess

/-- Outside of blocks braces end nothing, and nothing is left. -/
theorem members_append {tokens : List Token} (hElse : NoElse more)
    (hFirm : ∀ failure ∈ (members false tokens).failures, failure.found ≠ [])
    (hLast : (members false tokens).failures = [] ∨ SemicolonLast tokens) :
    members false (tokens ++ more) =
      ⟨(members false tokens).stmts ++ (members false more).stmts,
        (members false tokens).failures.map (·.onto more) ++
          (members false more).failures, []⟩ := by
  have hEnd : (members false tokens).failures = [] ∨ Contained false tokens :=
    hLast.imp_right fun h => ⟨h, fun hIn => absurd hIn Bool.false_ne_true⟩
  rw [members_append_of_contained hElse hFirm hEnd, members_rest_eq_nil]

end Members

/-- A failure that found a token is about that token, whatever stands at the
end of the input. -/
theorem Failure.toError_onto {failure : Failure} (hFound : failure.found ≠ [])
    (more : List Token) (finish finish' : Token) :
    (failure.onto more).toError finish = failure.toError finish' := by
  obtain ⟨fault, found⟩ := failure
  cases found with
  | nil => exact absurd rfl hFound
  | cons token found => rfl

end Grammar

open Grammar

/-! ## Programs -/

section Program

variable {first second : List Token}

theorem programTokens_append
    (hFirst : ∀ token ∈ first, token.kind ≠ .endOfInput)
    (second : List Token) :
    programTokens (first ++ second) =
      programTokens first ++ programTokens second := by
  have hMeaningful : ∀ token ∈ first.filter fun token => !token.kind.isComment,
      decide (token.kind ≠ .endOfInput) = true := by
    intro token hMem
    exact decide_eq_true (hFirst token (List.mem_of_mem_filter hMem))
  rw [programTokens, List.filter_append,
    List.takeWhile_append_of_pos hMeaningful, programTokens,
    List.takeWhile_eq_self_iff.2 hMeaningful, programTokens]

/-- The end of the input is that of the second part, unless there is nothing
in it. -/
theorem finish_append (hFirst : ∀ token ∈ first, token.kind ≠ .endOfInput)
    (hSecond : second.filter (fun token => !token.kind.isComment) ≠ []) :
    (Reader.ofTokens (first ++ second)).finish =
      (Reader.ofTokens second).finish := by
  have hNone : (first.filter fun token => !token.kind.isComment).find?
      (·.kind = .endOfInput) = none := by
    rw [List.find?_eq_none]
    intro token hMem
    simpa using hFirst token (List.mem_of_mem_filter hMem)
  show Reader.finishOf _ = Reader.finishOf _
  rw [List.filter_append, Reader.finishOf, Reader.finishOf,
    List.find?_append, hNone, Option.none_or,
    List.getLast?_append_of_ne_nil _ hSecond]

/-- The errors of the second part do not tell what stands before it. -/
theorem map_toError_append
    (hFirst : ∀ token ∈ first, token.kind ≠ .endOfInput) :
    (members false (programTokens second)).failures.map
        (·.toError (Reader.ofTokens (first ++ second)).finish) =
      (Program.ofTokens second).errors := by
  rw [errors_ofTokens]
  by_cases hSecond : second.filter (fun token => !token.kind.isComment) = []
  · have hTokens : programTokens second = [] := by
      rw [programTokens, hSecond, List.takeWhile_nil]
    rw [hTokens, members_nil]
    rfl
  · rw [finish_append hFirst hSecond]

/-- If no error is about the end of the input then every failure found a
token. -/
theorem found_ne_nil_of_errors
    (h : ∀ error ∈ (Program.ofTokens first).errors,
      error.token.kind ≠ .endOfInput) :
    ∀ failure ∈ (members false (programTokens first)).failures,
      failure.found ≠ [] := by
  intro failure hMem hFound
  rw [errors_ofTokens] at h
  refine h _ (List.mem_map_of_mem hMem) ?_
  rw [Failure.toError, hFound]
  exact Reader.kind_finishOf _

/-- **Programs one behind the other are read as each of them alone.** Let
no end of the input stand in the first one, and no `else` at the beginning
of the second one. If the first one has no errors, or if it ends with a
semicolon and none of its errors is about the end of the input, then the
statements and the errors of both together are those of the first one,
followed by those of the second one. So errors in the first one never
change how the second one is understood, and nothing in the first one hides
errors in the second one.

An error recorded while reading stands at the end of the input is about it,
or else about a constant that is the last token, which a semicolon is
not. -/
theorem ofTokens_append
    (hFirst : ∀ token ∈ first, token.kind ≠ .endOfInput)
    (hElse : ∀ token ∈ (programTokens second).head?, token.kind ≠ .elseWord)
    (hErrors : (Program.ofTokens first).errors = [] ∨
      (programTokens first).getLast?.map (·.kind) = some .semicolon ∧
        ∀ error ∈ (Program.ofTokens first).errors,
          error.token.kind ≠ .endOfInput) :
    (Program.ofTokens (first ++ second)).stmts =
        (Program.ofTokens first).stmts ++ (Program.ofTokens second).stmts ∧
      (Program.ofTokens (first ++ second)).errors =
        (Program.ofTokens first).errors ++ (Program.ofTokens second).errors := by
  have hFirm : ∀ failure ∈ (members false (programTokens first)).failures,
      failure.found ≠ [] := by
    apply found_ne_nil_of_errors
    obtain hNone | ⟨_, hAbout⟩ := hErrors
    · rw [hNone]
      exact List.forall_mem_nil _
    · exact hAbout
  have hLast : (members false (programTokens first)).failures = [] ∨
      SemicolonLast (programTokens first) := by
    obtain hNone | ⟨hSemicolon, _⟩ := hErrors
    · exact .inl ((errors_eq_nil_iff first).1 hNone)
    · refine .inr fun last hMem => ?_
      rw [Option.mem_def.1 hMem] at hSemicolon
      exact Option.some.inj hSemicolon
  have hBoth := members_append hElse hFirm hLast
  rw [← programTokens_append hFirst second] at hBoth
  constructor
  · exact congrArg Members.stmts hBoth
  · have hAlone : (members false (programTokens first)).failures.map
        (fun failure => (failure.onto (programTokens second)).toError
          (Reader.ofTokens (first ++ second)).finish) =
        (Program.ofTokens first).errors :=
      List.map_congr_left fun failure hMem =>
        Failure.toError_onto (hFirm failure hMem) ..
    rw [errors_ofTokens (first ++ second), hBoth, List.map_append, List.map_map,
      map_toError_append hFirst, ← hAlone]
    rfl

/-- In `x = ; y = x;` a value is missing and the second assignment is read
all the same. -/
theorem ofTokens_append_missing_value :
    let first : List Token := [⟨.identifier, "x", .start⟩,
      ⟨.assign, "=", .start⟩, ⟨.semicolon, ";", .start⟩]
    let second : List Token := [⟨.identifier, "y", .start⟩,
      ⟨.assign, "=", .start⟩, ⟨.identifier, "x", .start⟩,
      ⟨.semicolon, ";", .start⟩]
    (Program.ofTokens (first ++ second)).stmts =
        [.assign ⟨.identifier, "y", .start⟩ ⟨.assign, "=", .start⟩
          (.var ⟨.identifier, "x", .start⟩)] ∧
      (Program.ofTokens (first ++ second)).errors =
        [⟨.operand, ⟨.semicolon, ";", .start⟩⟩] := by
  intro first second
  have hErrors : (Program.ofTokens first).errors =
      [⟨.operand, ⟨.semicolon, ";", .start⟩⟩] := by cbv
  have hFirst : ∀ token ∈ first, token.kind ≠ .endOfInput := by decide
  have hElse : ∀ token ∈ (programTokens second).head?,
      token.kind ≠ .elseWord := by decide
  have hLast : (programTokens first).getLast?.map (·.kind) =
      some .semicolon := by decide
  have hAbout : ∀ error ∈ (Program.ofTokens first).errors,
      error.token.kind ≠ .endOfInput := by
    rw [hErrors]
    decide
  obtain ⟨hStmts, hAll⟩ :=
    ofTokens_append hFirst hElse (.inr ⟨hLast, hAbout⟩)
  rw [hStmts, hAll, hErrors]
  constructor <;> cbv

end Program

end ImpFront
