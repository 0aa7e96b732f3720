import ImpFront.Proofs.Cursor.Triple
import ImpFront.Proofs.Grammar.Reading

/-!
# Expressions read with a cursor

Each rule of the machine does what the rule of the same name makes of the
unread tokens: it comes to an end, with the same value or a failure, in
front of the same tokens, and with the same failures added to its errors.
`Reads` says so, and it is proved rule by rule along the equations that
the readings have. The fuel that a rule needs grows with the number of
unread tokens: between one token and the next one an expression goes down
at most through the seven levels and an operand.

## Main results

* `Reads.bind` — one rule behind another.
* `consume_reads` — a token that is wanted.
* `level_reads` — expressions.
-/

namespace ImpFront

open Token (Kind)
open Grammar (Reading constant? le_loosest loosest)

/-- The result that a rule of the machine has for a reading. -/
def Grammar.Reading.result {α : Type} : Reading α → Except Unit α
  | accept _ value _ => .ok value
  | reject _ _ _ => .error ()

/-- The errors that the failures of a reading are. -/
def Grammar.Reading.errors {α : Type} (finish : Token) (reading : Reading α) :
    List SyntaxError :=
  reading.failures.map (·.toError finish)

@[simp] theorem Grammar.Reading.result_after {α : Type}
    (failures : List Grammar.Failure) (reading : Reading α) :
    (reading.after failures).result = reading.result := by
  cases reading <;> rfl

namespace Cursor

/-! ## Rules that read -/

section Reads

variable {α β : Type} {stream : Stream} {rest : List Token} {rule : Rule α}

/-- On the unread tokens `rest` the rule does what the reading says. -/
def Reads (stream : Stream) (rule : Rule α) (rest : List Token)
    (reading : Reading α) : Prop :=
  ∀ errors, Ends (At stream rest errors) rule reading.result
    (At stream reading.rest (errors ++ reading.errors stream.finish))

/-- A rule that records no errors, and accepts. -/
theorem Reads.of_accept {value : α} {rest' : List Token}
    (h : ∀ errors, Ends (At stream rest errors) rule (.ok value)
      (At stream rest' errors)) :
    Reads stream rule rest (.accept [] value rest') := by
  intro errors
  show Ends _ _ _ (At stream rest' (errors ++ []))
  rw [List.append_nil]
  exact h errors

theorem Reads.pure (value : α) :
    Reads stream (Pure.pure value) rest (.accept [] value rest) :=
  .of_accept fun _ => .pure value

/-- A step that reads something, in front of a rule. -/
theorem Reads.step {value : α} {next : α → Rule β} {rest' : List Token}
    {reading : Reading β}
    (hRule : ∀ errors, Ends (At stream rest errors) rule (.ok value)
      (At stream rest' errors))
    (hNext : Reads stream (next value) rest' reading) :
    Reads stream (rule >>= next) rest reading :=
  fun errors => (hRule errors).bind (hNext errors)

theorem Reads.bind_of {reading : Reading α} {f : α → Rule β}
    {next : α → List Token → Reading β}
    (hRule : Reads stream rule rest reading)
    (hNext : ∀ mended value rest', reading = .accept mended value rest' →
      Reads stream (f value) rest' (next value rest')) :
    Reads stream (rule >>= f) rest (reading.bind next) := by
  intro errors
  cases reading with
  | accept mended value rest' =>
      have hSecond := hNext mended value rest' rfl
        (errors ++ mended.map (·.toError stream.finish))
      rw [Reading.bind, Reading.result_after, Reading.rest_after,
        Reading.errors, Reading.failures_after, List.map_append,
        ← List.append_assoc]
      exact (hRule errors).bind hSecond
  | reject mended failure rest' => exact (hRule errors).bind_error

/-- A rule behind another one. -/
theorem Reads.bind {reading : Reading α} {f : α → Rule β}
    {next : α → List Token → Reading β}
    (hRule : Reads stream rule rest reading)
    (hNext : ∀ value rest', Reads stream (f value) rest' (next value rest')) :
    Reads stream (rule >>= f) rest (reading.bind next) :=
  hRule.bind_of fun _ value rest' _ => hNext value rest'

theorem Reads.map {reading : Reading α} {f : α → β}
    (hRule : Reads stream rule rest reading) :
    Reads stream (rule >>= fun value => Pure.pure (f value)) rest
      (reading.map f) :=
  hRule.bind fun value _ => .pure (f value)

/-- A rule behind one that has its value in another form. -/
theorem Reads.bind_map {γ : Type} {reading : Reading γ} {g : γ → α}
    {f : α → Rule β} {next : γ → List Token → Reading β}
    (hRule : Reads stream rule rest (reading.map g))
    (hNext : ∀ value rest', Reads stream (f (g value)) rest' (next value rest')) :
    Reads stream (rule >>= f) rest (reading.bind next) := by
  cases reading with
  | accept mended value rest' =>
      rw [Reading.map_accept] at hRule
      show Reads stream (rule >>= f) rest
        ((Reading.accept mended (g value) rest').bind fun _ rest =>
          next value rest)
      refine hRule.bind_of ?_
      rintro _ _ _ ⟨⟩
      exact hNext value rest'
  | reject mended failure rest' => exact fun errors => (hRule errors).bind_error

/-- A rule that is attempted: its failure is mended. -/
theorem Reads.mend {reading : Reading α} {next : Except Unit α → Rule β}
    {accepted : α → List Token → Reading β} {rejected : List Token → Reading β}
    (hRule : Reads stream rule rest reading)
    (hAccepted : ∀ mended value rest', reading = .accept mended value rest' →
      Reads stream (next (.ok value)) rest' (accepted value rest'))
    (hRejected : ∀ mended failure rest', reading = .reject mended failure rest' →
      Reads stream (next (.error ())) rest' (rejected rest')) :
    Reads stream (attempt rule >>= next) rest
      (reading.mend accepted rejected) := by
  intro errors
  have hAttempt := (hRule errors).attempt
  cases reading with
  | accept mended value rest' =>
      have hNext := hAccepted mended value rest' rfl
        (errors ++ mended.map (·.toError stream.finish))
      rw [Reading.mend, Reading.result_after, Reading.rest_after,
        Reading.errors, Reading.failures_after, List.map_append,
        ← List.append_assoc]
      exact hAttempt.bind hNext
  | reject mended failure rest' =>
      have hNext := hRejected mended failure rest' rfl
        (errors ++ (mended ++ [failure]).map (·.toError stream.finish))
      rw [Reading.mend, Reading.result_after, Reading.rest_after,
        Reading.errors, Reading.failures_after, List.map_append,
        ← List.append_assoc]
      exact hAttempt.bind hNext

/-- Where the cursor is shows how many tokens are unread. -/
theorem Reads.get {reading : Reading β} {next : Cursor → Rule β}
    (hNext : ∀ cursor, cursor.current + rest.length = stream.unread.length →
      Reads stream (next cursor) rest reading) :
    Reads stream (MonadState.get >>= next) rest reading :=
  fun errors => Ends.get fun cursor hCursor =>
    (hNext cursor hCursor.current errors).mono (fun _ h => h ▸ hCursor)
      fun _ h => h

/-- The tokens before a cursor are the last ones of the stream. -/
theorem Reads.of_suffix {reading : Reading α}
    (h : rest <:+ stream.unread → Reads stream rule rest reading) :
    Reads stream rule rest reading :=
  fun errors => .of_suffix fun hSuffix => h hSuffix errors

/-- A rule that fails at the cursor. -/
theorem error_reads {fault : SyntaxFault} :
    Reads stream (error fault : Rule α) rest (.reject [] ⟨fault, rest⟩ rest) :=
  fun _ => error_at

theorem consume_reads (kind : Kind) (fault : SyntaxFault) :
    Reads stream (consume kind fault) rest (Grammar.expect kind fault rest).reading := by
  cases rest with
  | nil =>
      exact .step (fun _ => check_nil) error_reads
  | cons token rest =>
      by_cases h : token.kind = kind
      · rw [Grammar.reading_expect_of_eq h]
        exact .step (fun _ => check_of_eq h) (.of_accept fun _ => advance_cons)
      · rw [Grammar.reading_expect_of_ne h]
        exact .step (fun _ => check_of_ne h) error_reads

/-! ### Choices by the next token -/

variable {yes no : Rule α} {reading : Reading α} {kinds : List Kind}
  {token : Token}

theorem Reads.match_nil (hNo : Reads stream no [] reading) :
    Reads stream (matchAny kinds >>= fun found => if found then yes else no) []
      reading :=
  .step (fun _ => matchAny_nil) hNo

theorem Reads.match_of_mem (h : token.kind ∈ kinds)
    (hYes : Reads stream yes rest reading) :
    Reads stream (matchAny kinds >>= fun found => if found then yes else no)
      (token :: rest) reading :=
  .step (fun _ => matchAny_of_mem h) hYes

theorem Reads.match_of_not_mem (h : token.kind ∉ kinds)
    (hNo : Reads stream no (token :: rest) reading) :
    Reads stream (matchAny kinds >>= fun found => if found then yes else no)
      (token :: rest) reading :=
  .step (fun _ => matchAny_of_not_mem h) hNo

/-- The token read last is in front of the cursor. -/
theorem Reads.previous {next : Token → Rule β} {reading : Reading β}
    (hSuffix : token :: rest <:+ stream.unread)
    (hNext : Reads stream (next token) rest reading) :
    Reads stream (Cursor.previous >>= next) rest reading :=
  .step (fun _ => previous_at hSuffix) hNext

end Reads

/-! ## Expressions -/

theorem mem_operators {kind : Kind} {k : Nat} :
    kind ∈ operators (k + 1) ↔ kind.looseness? = some (k + 1) := by
  match k with
  | 0 | 1 | 2 | 3 | 4 | 5 => cases kind <;> decide
  | k + 6 => cases kind <;> simp [operators, Kind.looseness?]

theorem mem_unary {kind : Kind} :
    kind ∈ [Kind.not, Kind.minus] ↔ kind.isUnary = true := by
  cases kind <;> decide

section Expression

variable {stream : Stream} {token : Token} {rest : List Token} {fuel : Nat}

/-- The end of the input is no operand. -/
theorem primary_nil :
    Reads stream (primary (fuel + 1)) [] (.reject [] ⟨.operand, []⟩ []) := by
  have hKind : (stream.front []).kind = .endOfInput := stream.kind_finish
  have hConstant : constant? (stream.front []) = none := by
    rw [constant?, hKind]
  rw [primary]
  apply Reads.step (fun _ => peek_at)
  rw [if_neg (by rw [hKind]; decide), if_neg (by rw [hKind]; decide)]
  split <;> rename_i h <;> rw [hConstant] at h <;> cases h
  exact error_reads

theorem primary_atom (hOpen : token.kind ≠ .leftParen) :
    Reads stream (primary (fuel + 1)) (token :: rest)
      (Grammar.atom (token :: rest)).reading := by
  rw [primary]
  apply Reads.step (fun _ => peek_cons)
  by_cases hName : token.kind = .identifier
  · rw [if_pos hName, Grammar.reading_atom_name hName]
    exact .step (fun _ => advance_cons) (.pure _)
  rw [if_neg hName, if_neg hOpen]
  split
  · next value h =>
    rw [Grammar.reading_atom_constant hName h]
    exact .step (fun _ => advance_cons) (.pure _)
  · next fault h =>
    rw [Grammar.reading_atom_unreadable hName h]
    exact .step (fun _ => advance_cons) fun _ => errorAt_at
  · next h =>
    rw [Grammar.reading_atom_other hName h]
    exact error_reads

/-- In parentheses the rule for all levels is called again. -/
theorem primary_group (hOpen : token.kind = .leftParen)
    (hInner : Reads stream (level fuel loosest) rest
      (Grammar.level loosest rest).reading) :
    Reads stream (primary (fuel + 1)) (token :: rest)
      (Grammar.level 0 (token :: rest)).reading := by
  have hName : token.kind ≠ .identifier := by rw [hOpen]; decide
  rw [Grammar.reading_level_group hOpen, primary]
  apply Reads.step (fun _ => peek_cons)
  simp only [if_neg hName, if_pos hOpen]
  apply Reads.step (fun _ => advance_cons)
  apply hInner.bind
  intro inner rest'
  exact (consume_reads _ _).map

mutual

theorem level_reads (fuel k : Nat) (rest : List Token)
    (hFuel : 8 * rest.length + k + 2 ≤ fuel) :
    Reads stream (level fuel k) rest (Grammar.level k rest).reading := by
  match fuel, k, rest with
  | 0, _, _ | 1, _, _ => omega
  | fuel + 2, 0, [] =>
      rw [level, Grammar.reading_level_nil]
      exact .match_nil primary_nil
  | fuel + 2, 0, token :: rest =>
      have hInner : 8 * rest.length + loosest + 2 ≤ fuel := by
        rw [List.length_cons] at hFuel
        rw [loosest]
        omega
      rw [level]
      by_cases hUnary : token.kind.isUnary = true
      · rw [Grammar.reading_level_unary hUnary]
        apply Reads.of_suffix
        intro hSuffix
        apply Reads.match_of_mem (mem_unary.2 hUnary)
        apply Reads.previous hSuffix
        exact (level_reads (fuel + 1) 0 rest (by omega)).map
      apply Reads.match_of_not_mem (mt mem_unary.1 hUnary)
      by_cases hOpen : token.kind = .leftParen
      · exact primary_group hOpen (level_reads fuel loosest rest hInner)
      · rw [Grammar.reading_level_atom hUnary hOpen]
        exact primary_atom hOpen
  | fuel + 2, k + 1, rest =>
      rw [level, Grammar.reading_level_succ]
      apply (level_reads (fuel + 1) k rest (by omega)).bind_of
      intro mended left rest' hReading
      have hLess := Grammar.Outcome.length_lt_of_reading hReading
      exact chain_reads (fuel + 1) k left rest' (by omega)
termination_by fuel

theorem chain_reads (fuel k : Nat) (left : Expr) (rest : List Token)
    (hFuel : 8 * rest.length + 1 ≤ fuel) :
    Reads stream (chain fuel k left) rest (Grammar.chainReading k left rest) := by
  match fuel, rest with
  | 0, _ => omega
  | fuel + 1, [] =>
      rw [chain, Grammar.chainReading_nil]
      exact .match_nil (.pure left)
  | fuel + 1, token :: rest =>
      rw [chain]
      by_cases h : token.kind.looseness? = some (k + 1)
      · have hLevel : 8 * rest.length + k + 2 ≤ fuel := by
          have hLoosest : k + 1 ≤ 6 := le_loosest h
          rw [List.length_cons] at hFuel
          omega
        rw [Grammar.chainReading_operator left h]
        apply Reads.of_suffix
        intro hSuffix
        apply Reads.match_of_mem (mem_operators.2 h)
        apply Reads.previous hSuffix
        apply (level_reads fuel k rest hLevel).bind_of
        intro mended right rest' hReading
        have hLess := Grammar.Outcome.length_lt_of_reading hReading
        exact chain_reads fuel k _ rest' (by omega)
      · rw [Grammar.chainReading_stop left h]
        exact .match_of_not_mem (mt mem_operators.1 h) (.pure left)
termination_by fuel

end

theorem expression_reads (fuel : Nat) (rest : List Token)
    (hFuel : 8 * rest.length + 8 ≤ fuel) :
    Reads stream (expression fuel) rest (Grammar.expression rest).reading :=
  level_reads fuel loosest rest hFuel

end Expression

end Cursor

end ImpFront
