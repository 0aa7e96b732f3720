import ImpFront.Expr

/-!
# Printing a chain in a loop and printing it part by part

The text of an expression has a simple description: each operator stands
between the texts of its operands, in parentheses. `nested` is that
description, and it goes down to the left as deep as a chain of operators is
long.

A printer that spares the depth takes a chain apart first. It writes all the
parentheses that open, then the leftmost operand, and then in a loop each
operator, its right operand and the parenthesis that closes. So the opening
parentheses are not written in the order of the tree, and that they come out
right is seen by an induction along the chain, for any leftmost operand.

## Main results

* `nested_ofSpine` — the description of a chain, in the order of the loop.
* `writeOnto_eq` — the printer writes what is described.
* `text_eq_nested` — the text of an expression is the one described.
-/

namespace ImpFront.Expr

/-! ## The parts of an expression are smaller -/

theorem sizeOf_operand_lt (operator : Token) (operand : Expr) :
    sizeOf operand < sizeOf (unary operator operand) := by
  rw [unary.sizeOf_spec]
  omega

theorem sizeOf_inner_lt (inner : Expr) :
    sizeOf inner < sizeOf (group inner) := by
  rw [group.sizeOf_spec]
  omega

theorem sizeOf_spineOnto (pairs : List (Token × Expr)) (expr : Expr) :
    sizeOf (expr.spineOnto pairs).1 ≤ sizeOf expr ∧
      ∀ pair ∈ (expr.spineOnto pairs).2,
        pair ∈ pairs ∨ sizeOf pair.2 < sizeOf expr := by
  induction expr generalizing pairs with
  | binary left operator right ih =>
      obtain ⟨hLeftmost, hPairs⟩ := ih ((operator, right) :: pairs)
      rw [spineOnto, binary.sizeOf_spec]
      refine ⟨by omega, fun pair hMem => ?_⟩
      rcases hPairs pair hMem with hFirst | hLess
      · rcases List.mem_cons.1 hFirst with rfl | hMore
        · exact .inr (by simp only; omega)
        · exact .inl hMore
      · exact .inr (by omega)
  | _ => exact ⟨Nat.le_refl _, fun _ hMem => .inl hMem⟩

/-- The right operands of a chain are smaller than the chain. -/
theorem sizeOf_right_lt {expr : Expr} {pair : Token × Expr}
    (h : pair ∈ expr.spine.2) : sizeOf pair.2 < sizeOf expr :=
  ((sizeOf_spineOnto [] expr).2 pair h).resolve_left List.not_mem_nil

/-- So is its leftmost operand, if there is an operator at all. -/
theorem sizeOf_leftmost_lt (left : Expr) (operator : Token) (right : Expr) :
    sizeOf (binary left operator right).spine.1 <
      sizeOf (binary left operator right) := by
  have hLeft := (sizeOf_spineOnto [(operator, right)] left).1
  rw [spine, spineOnto, binary.sizeOf_spec]
  omega

/-! ## Two ways to print -/

/-- The text of an expression, part by part. -/
def nested : Expr → String
  | binary left operator right =>
    s!"({left.nested} {operator.lexeme} {right.nested})"
  | unary operator operand => s!"({operator.lexeme}{operand.nested})"
  | literal value => value.text
  | var name => name.lexeme
  | group inner => s!"(group {inner.nested})"

/-- Write an expression behind what has been written before: of a chain all
parentheses that open, the leftmost operand, and in a loop what follows
it. -/
def writeOnto (out : String) : Expr → String
  | binary left operator right =>
    let chain := (binary left operator right).spine
    let opened := chain.2.foldl (fun out _ => out ++ "(") out
    let begun := writeOnto opened chain.1
    chain.2.attach.foldl (fun out ⟨(operator, right), _⟩ =>
      writeOnto (out ++ " " ++ operator.lexeme ++ " ") right ++ ")") begun
  | unary operator operand =>
    writeOnto (out ++ "(" ++ operator.lexeme) operand ++ ")"
  | literal value => out ++ value.text
  | var name => out ++ name.lexeme
  | group inner => writeOnto (out ++ "(group ") inner ++ ")"
termination_by expr => sizeOf expr
decreasing_by
  · exact sizeOf_leftmost_lt ..
  · exact sizeOf_right_lt ‹_›
  · exact sizeOf_operand_lt ..
  · exact sizeOf_inner_lt ..

/-! ## The description of a chain -/

/-- What the loop writes for an operator and its right operand. -/
def closing (pair : Token × Expr) : String :=
  s!" {pair.1.lexeme} {pair.2.nested})"

/-- As many parentheses as there are operators. -/
def opening (pairs : List (Token × Expr)) : String :=
  String.ofList (List.replicate pairs.length '(')

/-- In the description of a chain the parentheses that open come first. -/
theorem nested_ofSpine (leftmost : Expr) (pairs : List (Token × Expr)) :
    (ofSpine leftmost pairs).nested =
      opening pairs ++ leftmost.nested ++ String.join (pairs.map closing) := by
  induction pairs generalizing leftmost with
  | nil => simp [ofSpine, opening]
  | cons pair pairs ih =>
      have hInner := ih (binary leftmost pair.1 pair.2)
      rw [nested] at hInner
      show (ofSpine (binary leftmost pair.1 pair.2) pairs).nested = _
      rw [hInner]
      simp [opening, closing, List.replicate_succ', String.join_cons,
        String.append_assoc, toString]

/-! ## The loops -/

theorem foldl_opening (out : String) (pairs : List (Token × Expr)) :
    pairs.foldl (fun out _ => out ++ "(") out = out ++ opening pairs := by
  induction pairs generalizing out with
  | nil => simp [opening]
  | cons pair pairs ih =>
      rw [List.foldl_cons, ih]
      simp [opening, List.replicate_succ, String.append_assoc]

/-- A loop that writes a text at each turn has written them all, one after
another. -/
theorem foldl_writing {α : Type} {write : String → α → String}
    {text : α → String} (h : ∀ out a, write out a = out ++ text a)
    (out : String) (list : List α) :
    list.foldl write out = out ++ String.join (list.map text) := by
  induction list generalizing out with
  | nil => simp
  | cons a list ih =>
      rw [List.foldl_cons, ih, h, List.map_cons, String.join_cons,
        String.append_assoc]

/-- The printer writes what is described, and leaves alone what was written
before. -/
theorem writeOnto_eq (out : String) (expr : Expr) :
    expr.writeOnto out = out ++ expr.nested := by
  match expr with
  | binary left operator right =>
      have hLeftmost (out : String) :=
        writeOnto_eq out (binary left operator right).spine.1
      have hClosing (out : String)
          (pair : { pair // pair ∈ (binary left operator right).spine.2 }) :
          writeOnto (out ++ " " ++ pair.1.1.lexeme ++ " ") pair.1.2 ++ ")" =
            out ++ closing pair.1 := by
        rw [writeOnto_eq _ pair.1.2]
        simp [closing, String.append_assoc, toString]
      have hChain := nested_ofSpine (binary left operator right).spine.1
        (binary left operator right).spine.2
      rw [ofSpine_spine] at hChain
      rw [writeOnto, foldl_writing hClosing, hLeftmost, foldl_opening,
        List.attach_map_val, hChain]
      simp only [String.append_assoc]
  | unary operator operand =>
      rw [writeOnto, writeOnto_eq _ operand, nested]
      simp [String.append_assoc, toString]
  | literal value => rw [writeOnto, nested]
  | var name => rw [writeOnto, nested]
  | group inner =>
      rw [writeOnto, writeOnto_eq _ inner, nested]
      simp [String.append_assoc, toString]
termination_by sizeOf expr
decreasing_by
  · exact sizeOf_leftmost_lt ..
  · exact sizeOf_right_lt pair.2
  · exact sizeOf_operand_lt ..
  · exact sizeOf_inner_lt ..

/-- **A chain is printed as if part by part.** The text of every expression,
whatever its shape, is the one that puts each operator in parentheses between
the texts of its operands; and so is what a printer writes, behind anything,
that goes along each chain in a loop and writes all parentheses that open
before the leftmost operand. -/
theorem text_eq_nested (expr : Expr) :
    expr.text = expr.nested ∧
      ∀ out : String, expr.writeOnto out = out ++ expr.text := by
  have hText : expr.text = expr.nested := by
    induction expr with
    | binary left operator right ihLeft ihRight =>
        rw [text_binary, ihLeft, ihRight, nested]
    | unary operator operand ih => rw [text_unary, ih, nested]
    | literal value => exact text_literal value
    | var name => exact text_var name
    | group inner ih => rw [text_group, ih, nested]
  refine ⟨hText, fun out => ?_⟩
  rw [hText]
  exact writeOnto_eq out expr

/-- In `a + (b - c - d) + e` the right operand is a chain as well. -/
example :
    let a (name : String) : Expr := .var ⟨.identifier, name, .start⟩
    let plus : Token := ⟨.plus, "+", .start⟩
    let minus : Token := ⟨.minus, "-", .start⟩
    (binary (binary (a "a") plus
      (binary (binary (a "b") minus (a "c")) minus (a "d"))) plus
        (a "e")).text = "((a + ((b - c) - d)) + e)" := by decide +kernel

end ImpFront.Expr
