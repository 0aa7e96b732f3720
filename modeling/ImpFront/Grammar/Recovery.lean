import ImpFront.Token

/-!
# Where reading goes on after a broken statement

When a statement is broken, one token is passed over and then all others
up to a place where a new statement is likely to begin: just behind a
semicolon, or in front of a word that only a statement can begin with.

## Main results

* `length_recover_lt` — recovery passes over at least one token.
* `recover_suffix` — and it changes nothing in what it leaves.
-/

namespace ImpFront

/-- Can only a declaration or a statement begin with the kind? -/
def Token.Kind.beginsStatement : Token.Kind → Bool
  | long | double | ifWord | whileWord | read | write => true
  | _ => false

namespace Grammar

/-- The tokens from the next likely beginning of a statement on, where
`previous` is the token passed over last. -/
def resume (previous : Token) : List Token → List Token
  | [] => []
  | token :: rest =>
    if previous.kind = .semicolon || token.kind.beginsStatement then
      token :: rest
    else resume token rest

/-- Pass over one token, and over all others up to the next likely
beginning of a statement. -/
def recover : List Token → List Token
  | [] => []
  | token :: rest => resume token rest

theorem resume_suffix (previous : Token) (tokens : List Token) :
    resume previous tokens <:+ tokens := by
  induction tokens generalizing previous with
  | nil => exact List.suffix_rfl
  | cons token rest ih =>
    rw [resume]
    split
    · exact List.suffix_rfl
    · exact (ih token).trans (List.suffix_cons token rest)

theorem recover_suffix (tokens : List Token) : recover tokens <:+ tokens := by
  cases tokens with
  | nil => exact List.suffix_rfl
  | cons token rest =>
    exact (resume_suffix token rest).trans (List.suffix_cons token rest)

theorem length_recover_lt (token : Token) (rest : List Token) :
    (recover (token :: rest)).length < (token :: rest).length :=
  Nat.lt_succ_of_le (resume_suffix token rest).length_le

/-- At the end of the input nothing is passed over. -/
@[simp] theorem recover_nil : recover [] = [] := rfl

/-- What is left never exceeds a bound below what there was, unless there
was nothing. -/
theorem length_recover_lt_of_le {tokens : List Token} {bound : Nat}
    (hPos : 0 < bound) (hLe : tokens.length ≤ bound) :
    (recover tokens).length < bound := by
  cases tokens with
  | nil => exact hPos
  | cons token rest =>
    exact Nat.lt_of_lt_of_le (length_recover_lt token rest) hLe

end Grammar

end ImpFront
