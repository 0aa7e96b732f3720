import ImpFront.Expr

/-!
# A chain and its spine

A chain of operators is put together from the left: the leftmost operand,
and around it one operator after another. Whoever takes it apart begins at
the other end. The operator at the top is the last one of the chain, and a
walk down the left operands meets the others behind it. So the pairs of an
operator with its right operand are noted in the wrong order, and are turned
round when the walk comes to an operand that is no chain.

`Descent` is such a walk, with what it has noted on the way. A step moves the
operator at the top from the expression to the notes, and the chain that both
make together stays the same (`origin_step`). The walk therefore ends with a
leftmost operand and pairs that are the whole chain (`origin_run`).

That nothing else could have come out is seen from the spine. Pairs that are
put around an operand lie in front of all that was pending when they are
taken off again (`spineOnto_ofSpine`), whatever their right operands are:
these may be chains too, but no walk enters them.

## Main results

* `origin_run`, `isBinary_run` — what a walk keeps, and where it ends.
* `spineOnto_ofSpine` — operators put around an operand and taken off again.
* `spine_eq_run` — the walk finds the spine.
* `spine_exact` — the spine is the only way to take a chain apart.
-/

namespace ImpFront.Expr

/-! ## The walk down a chain -/

/-- A walk down the left operands of a chain: the operand that it has come
to, and each operator that it has passed, with its right operand, the last
one of the chain first. -/
structure Descent where
  reached : Expr
  passed : Array (Token × Expr)

namespace Descent

/-- A walk begins at the whole chain. -/
def start (expr : Expr) : Descent := ⟨expr, #[]⟩

/-- Pass the operator at the top, if there is one. -/
def step? : Descent → Option Descent
  | ⟨binary left operator right, passed⟩ =>
    some ⟨left, passed.push (operator, right)⟩
  | _ => none

/-- All that a step does. -/
theorem step?_eq_some_iff {descent next : Descent} :
    descent.step? = some next ↔
      ∃ operator right,
        descent.reached = binary next.reached operator right ∧
          next.passed = descent.passed.push (operator, right) := by
  obtain ⟨reached, passed⟩ := descent
  obtain ⟨left, more⟩ := next
  cases reached with
  | binary left' operator right =>
      simp only [step?, Option.some.injEq, mk.injEq, binary.injEq]
      constructor
      · rintro ⟨rfl, rfl⟩
        exact ⟨operator, right, ⟨rfl, rfl, rfl⟩, rfl⟩
      · rintro ⟨_, _, ⟨rfl, rfl, rfl⟩, rfl⟩
        exact ⟨rfl, rfl⟩
  | _ => simp [step?]

theorem step?_eq_none_iff {descent : Descent} :
    descent.step? = none ↔ descent.reached.isBinary = false := by
  obtain ⟨reached, passed⟩ := descent
  cases reached <;> simp [step?, isBinary]

theorem sizeOf_reached_lt {descent next : Descent}
    (h : descent.step? = some next) :
    sizeOf next.reached < sizeOf descent.reached := by
  obtain ⟨operator, right, hReached, -⟩ := step?_eq_some_iff.1 h
  rw [hReached, binary.sizeOf_spec]
  omega

/-- Pass one operator after another, as long as there is one. -/
def run (descent : Descent) : Descent :=
  match _ : descent.step? with
  | some next => next.run
  | none => descent
termination_by sizeOf descent.reached
decreasing_by exact sizeOf_reached_lt ‹_›

/-- What has been passed, from the first operator of the chain on. -/
def pairs (descent : Descent) : List (Token × Expr) :=
  descent.passed.reverse.toList

/-- The chain that the operand reached and the operators passed are parts
of. -/
def origin (descent : Descent) : Expr :=
  ofSpine descent.reached descent.pairs

/-! ## What a step and a walk keep -/

/-- The operator that is passed becomes the first one behind the operand
that is reached. -/
theorem origin_step {descent next : Descent}
    (h : descent.step? = some next) : next.origin = descent.origin := by
  obtain ⟨operator, right, hReached, hPassed⟩ := step?_eq_some_iff.1 h
  have hPairs : next.pairs = (operator, right) :: descent.pairs := by
    simp [pairs, hPassed]
  rw [origin, origin, hPairs, hReached]
  rfl

theorem origin_run (descent : Descent) :
    descent.run.origin = descent.origin := by
  fun_induction run descent with
  | case1 descent next h ih => exact ih.trans (origin_step h)
  | case2 => rfl

/-- A walk ends at an operand that is no chain. -/
theorem isBinary_run (descent : Descent) :
    descent.run.reached.isBinary = false := by
  fun_induction run descent with
  | case1 descent next h ih => exact ih
  | case2 descent h => exact step?_eq_none_iff.1 h

end Descent

/-! ## The spine of a chain that is put together -/

theorem spineOnto_of_isBinary {leftmost : Expr}
    (h : leftmost.isBinary = false) (pending : List (Token × Expr)) :
    leftmost.spineOnto pending = (leftmost, pending) := by
  cases leftmost with
  | binary => cases h
  | _ => rfl

/-- Operators put around an operand come in front of what is pending when
they are taken off again. -/
theorem spineOnto_ofSpine (leftmost : Expr)
    (pairs pending : List (Token × Expr)) :
    (ofSpine leftmost pairs).spineOnto pending =
      leftmost.spineOnto (pairs ++ pending) := by
  induction pairs generalizing leftmost with
  | nil => rfl
  | cons pair pairs ih =>
      -- the first pair is the innermost one, and is taken off last
      show (ofSpine (binary leftmost pair.1 pair.2) pairs).spineOnto pending = _
      rw [ih, spineOnto]
      rfl

theorem spine_ofSpine {leftmost : Expr} (h : leftmost.isBinary = false)
    (pairs : List (Token × Expr)) :
    (ofSpine leftmost pairs).spine = (leftmost, pairs) := by
  rw [spine, spineOnto_ofSpine, List.append_nil, spineOnto_of_isBinary h]

/-- The walk from a chain, its notes turned round, ends with the spine. -/
theorem spine_eq_run (expr : Expr) :
    expr.spine =
      ((Descent.start expr).run.reached, (Descent.start expr).run.pairs) := by
  have hOrigin : (Descent.start expr).run.origin = expr :=
    Descent.origin_run (Descent.start expr)
  have hEnd := Descent.isBinary_run (Descent.start expr)
  have hSpine := spine_ofSpine hEnd (Descent.start expr).run.pairs
  rw [← Descent.origin, hOrigin] at hSpine
  exact hSpine

/-- **A chain has one spine.** An operand and pairs of an operator with a
right operand are the spine of an expression exactly if the operand is no
chain itself and the operators, put around it from the first pair to the
last, make that very expression. The spine is also what the walk down the
left operands ends with. -/
theorem spine_exact (expr leftmost : Expr) (pairs : List (Token × Expr)) :
    (expr.spine = (leftmost, pairs) ↔
      leftmost.isBinary = false ∧ ofSpine leftmost pairs = expr) ∧
      expr.spine =
        ((Descent.start expr).run.reached,
          (Descent.start expr).run.pairs) := by
  refine ⟨⟨fun hSpine => ?_, fun ⟨hLeftmost, hChain⟩ => ?_⟩,
    spine_eq_run expr⟩
  · have hLeftmost : expr.spine.1.isBinary = false :=
      isBinary_spineOnto expr []
    have hChain := ofSpine_spine expr
    rw [hSpine] at hLeftmost hChain
    exact ⟨hLeftmost, hChain⟩
  · rw [← hChain]
    exact spine_ofSpine hLeftmost pairs

/-- In `(a - b) * (c - d)` the right operand is a chain as well, and stays
whole. -/
example :
    let name (lexeme : String) : Expr := .var ⟨.identifier, lexeme, .start⟩
    let minus : Token := ⟨.minus, "-", .start⟩
    let times : Token := ⟨.times, "*", .start⟩
    let right := binary (name "c") minus (name "d")
    (binary (binary (name "a") minus (name "b")) times right).spine =
      (name "a", [(minus, name "b"), (times, right)]) := rfl

end ImpFront.Expr
