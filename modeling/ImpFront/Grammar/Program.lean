import ImpFront.Grammar.Statement

/-!
# Programs, and reading step by step

A reader of the grammar holds the tokens it has not read, the token that
stands at the end of the input, and the errors found so far. It is made
from any list of tokens: comments are left out, whatever follows the first
end of the input is ignored, and an end that is missing is supplied at the
position of the last token.

Single expressions can be read off the front; the rest is read as a
program. A program can always be read: what is broken in it is left out
and reported.

## Main results

* `kind_finishOf` — what stands at the end of the input is one.
* `kind_ne_of_mem_unread` — a new reader holds neither comments nor ends
  of the input.
-/

namespace ImpFront

open Grammar (Failure)

/-- A program, and the errors of what was left out of it. -/
structure Program where
  stmts : List Stmt
  errors : List SyntaxError

/-- A list of tokens that is being read. -/
structure Reader where
  /-- What has not been read. -/
  unread : List Token
  /-- The token at the end of the input. -/
  finish : Token
  /-- The errors found so far, in their order. -/
  errors : Array SyntaxError
deriving DecidableEq, Repr

namespace Reader

/-- The end of the input in a list of tokens without comments, supplied
where the last token is if there is none. -/
def finishOf (tokens : List Token) : Token :=
  match tokens.find? (·.kind = .endOfInput) with
  | some token => token
  | none =>
    match tokens.getLast? with
    | some token => .atEnd token.position
    | none => .atEnd .start

/-- Begin to read a list of tokens. -/
def ofTokens (tokens : List Token) : Reader :=
  let meaningful := tokens.filter fun token => !token.kind.isComment
  { unread := meaningful.takeWhile (·.kind ≠ .endOfInput)
    finish := finishOf meaningful
    errors := #[] }

theorem kind_finishOf (tokens : List Token) :
    (finishOf tokens).kind = .endOfInput := by
  rw [finishOf]
  split
  · next h => simpa using List.find?_some h
  · split <;> rfl

theorem kind_ne_of_mem_unread {tokens : List Token} {token : Token}
    (h : token ∈ (ofTokens tokens).unread) :
    token.kind ≠ .endOfInput ∧ token.kind.isComment = false := by
  have hMem := List.mem_filter.1 (List.takeWhile_subset _ h)
  have hKind := List.all_takeWhile (p := (·.kind ≠ .endOfInput))
    (l := tokens.filter fun token => !token.kind.isComment)
  exact ⟨by simpa using List.all_eq_true.1 hKind token h,
    by simpa using hMem.2⟩

/-- Add a failure to the errors. -/
def report (reader : Reader) (failure : Failure) : Reader :=
  { reader with errors := reader.errors.push (failure.toError reader.finish) }

/-- Read an expression off the front. If there is none, reading goes on
where the rule that failed stopped. -/
def expression (reader : Reader) : Option Expr × Reader :=
  match Grammar.expression reader.unread with
  | .accept value rest _ => (some value, { reader with unread := rest })
  | .reject failure rest _ =>
    (none, { reader with unread := rest }.report failure)

/-- Read all the rest as a program. -/
def program (reader : Reader) : Program :=
  let all := Grammar.members false reader.unread
  { stmts := all.stmts
    errors := reader.errors.toList ++
      all.failures.map (·.toError reader.finish) }

end Reader

/-- The program that a list of tokens is. -/
def Program.ofTokens (tokens : List Token) : Program :=
  (Reader.ofTokens tokens).program

end ImpFront
