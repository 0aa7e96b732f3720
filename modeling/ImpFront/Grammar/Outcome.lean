import ImpFront.Grammar.Fault

/-!
# What a rule makes of the unread tokens

A rule of the grammar reads tokens from the front of a list and either
accepts, with a value and the tokens it left, or rejects, with a failure
and the tokens from which reading may go on. A rule that accepts has read
something. A rule that rejects may have read nothing, but never puts
tokens back. Both facts are part of the type, so that rules which call
each other end by the number of unread tokens.

## Main results

* `length_rest_le` — no rule leaves more tokens than it was given.
* `andThen_suffix`, `expect_suffix` — what is left is the end of what was
  given, unchanged.
-/

namespace ImpFront.Grammar

/-- Behind its first token a list is shorter. -/
theorem length_lt_cons (token : Token) (rest : List Token) :
    rest.length < (token :: rest).length := Nat.lt_succ_self _

/-- Behind its first token a list is not longer. -/
theorem length_le_cons (token : Token) (rest : List Token) :
    rest.length ≤ (token :: rest).length := Nat.le_succ _

/-- The result of a rule on a list of at most `bound` tokens. -/
inductive Outcome (α : Type) (bound : Nat)
  | accept (value : α) (rest : List Token) (shorter : rest.length < bound)
  | reject (failure : Failure) (rest : List Token)
      (notLonger : rest.length ≤ bound)

namespace Outcome

variable {α β : Type} {bound bound' : Nat}

/-- The tokens left unread. -/
def rest : Outcome α bound → List Token
  | accept _ rest _ => rest
  | reject _ rest _ => rest

theorem length_rest_le (outcome : Outcome α bound) :
    outcome.rest.length ≤ bound := by
  cases outcome with
  | accept _ _ h => exact Nat.le_of_lt h
  | reject _ _ h => exact h

/-- The same result, seen from a longer list. -/
@[inline] def weaken (h : bound ≤ bound') : Outcome α bound → Outcome α bound'
  | accept value rest hRest => accept value rest (Nat.lt_of_lt_of_le hRest h)
  | reject failure rest hRest =>
    reject failure rest (Nat.le_trans hRest h)

/-- Change the value of an accepting result. -/
@[inline] def map (f : α → β) : Outcome α bound → Outcome β bound
  | accept value rest h => accept (f value) rest h
  | reject failure rest h => reject failure rest h

/-- Go on with another rule where the first one stopped. -/
@[inline] def andThen (first : Outcome α bound)
    (second : α → (rest : List Token) → Outcome β rest.length) :
    Outcome β bound :=
  match first with
  | accept value rest h => (second value rest).weaken (Nat.le_of_lt h)
  | reject failure rest h => reject failure rest h

@[simp] theorem rest_weaken (h : bound ≤ bound')
    (outcome : Outcome α bound) : (outcome.weaken h).rest = outcome.rest := by
  cases outcome <;> rfl

@[simp] theorem rest_map (f : α → β) (outcome : Outcome α bound) :
    (outcome.map f).rest = outcome.rest := by
  cases outcome <;> rfl

/-- A rule after a rule leaves the end of the tokens if both do. -/
theorem andThen_suffix {tokens : List Token} {first : Outcome α bound}
    {second : α → (rest : List Token) → Outcome β rest.length}
    (hFirst : first.rest <:+ tokens)
    (hSecond : ∀ value rest, (second value rest).rest <:+ rest) :
    (first.andThen second).rest <:+ tokens := by
  cases first with
  | accept value rest _ =>
    simp only [andThen, rest_weaken]
    exact (hSecond value rest).trans hFirst
  | reject _ _ _ => exact hFirst

end Outcome

/-- Reject at the front of the list, without reading anything. -/
def fail {α : Type} (fault : SyntaxFault) (tokens : List Token) :
    Outcome α tokens.length :=
  .reject ⟨fault, tokens⟩ tokens (Nat.le_refl _)

/-- Read one token of the kind wanted. -/
def expect (kind : Token.Kind) (fault : SyntaxFault) :
    (tokens : List Token) → Outcome Token tokens.length
  | [] => fail fault []
  | token :: rest =>
    if token.kind = kind then .accept token rest (length_lt_cons token rest)
    else fail fault (token :: rest)

theorem expect_suffix (kind : Token.Kind) (fault : SyntaxFault)
    (tokens : List Token) : (expect kind fault tokens).rest <:+ tokens := by
  cases tokens with
  | nil => exact List.suffix_rfl
  | cons token rest =>
    rw [expect]
    split
    · exact List.suffix_cons token rest
    · exact List.suffix_rfl

end ImpFront.Grammar
