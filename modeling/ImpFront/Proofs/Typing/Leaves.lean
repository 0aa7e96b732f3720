import ImpFront.Proofs.Typing.Agreement

/-!
# The type of an expression, by its leaves

Inference goes through an expression from operand to operand and combines
what it finds. What it comes to can be said without going through anything,
by the leaves of the expression, that is, its constants and names from left
to right. Each leaf has a type of its own or has none. The expression has a
type if and only if all of them have one, and then it is that of the
leftmost. The names without a declaration are reported one by one, in their
order, also where the absence of a type has long been settled. And if
nothing is reported then every operator has joined equal types, so the type
is that of all leaves.

The proofs are inductions over the expression, since an operator appends the
leaves of its operands.

## Main results

* `type?_ofExpr_eq_some_iff` — the type, by the leaves.
* `undeclared_ofExpr` — the errors about names.
* `type?_of_mem_leaves` — the types of the leaves where nothing is reported.
* `infer_by_leaves` — all of this together.
-/

namespace ImpFront

/-! ## Leaves -/

/-- A constant or a name in an expression. -/
inductive Leaf
  | literal (value : Literal)
  | var (name : Token)

namespace Leaf

/-- The type of a leaf: that of a number, or the one that a name is declared
with. -/
def type? (table : SymbolTable) : Leaf → Option NumType
  | literal (.integer _) => some .long
  | literal (.real _) => some .double
  | literal (.string _) | literal (.boolean _) | literal .nil => none
  | var name => table.typeOf? name.lexeme

/-- The token of a name. -/
def name? : Leaf → Option Token
  | literal _ => none
  | var name => some name

end Leaf

namespace Expr

/-- The leaves of an expression from left to right. -/
def leaves : Expr → List Leaf
  | binary left _ right => left.leaves ++ right.leaves
  | unary _ operand => operand.leaves
  | group inner => inner.leaves
  | literal value => [.literal value]
  | var name => [.var name]

/-- The leaf that is reached through left operands, the operands of prefix
operators, and groups. -/
def leftmost : Expr → Leaf
  | binary left _ _ => left.leftmost
  | unary _ operand => operand.leftmost
  | group inner => inner.leftmost
  | literal value => .literal value
  | var name => .var name

/-- Each occurrence of a name in an expression, from left to right. -/
def names (expr : Expr) : List Token :=
  expr.leaves.filterMap Leaf.name?

theorem names_binary (left : Expr) (operator : Token) (right : Expr) :
    (binary left operator right).names = left.names ++ right.names :=
  List.filterMap_append

/-- No leaf stands to the left of the leftmost. -/
theorem head?_leaves (expr : Expr) : expr.leaves.head? = some expr.leftmost := by
  induction expr with
  | binary left operator right ih _ =>
      rw [leaves, List.head?_append, ih]
      rfl
  | unary operator operand ih => exact ih
  | group inner ih => exact ih
  | literal value => rfl
  | var name => rfl

end Expr

/-! ## Types -/

section Types

variable {table : SymbolTable}

theorem type?_literal (value : Literal) :
    value.type? = (Leaf.literal value).type? table := by
  cases value <;> rfl

theorem type?_ofVar (name : Token) :
    (Inference.ofVar table name).type? = table.typeOf? name.lexeme := by
  rw [Inference.ofVar]
  cases table.typeOf? name.lexeme <;> rfl

/-- An operator has a type if both of its operands have one, and it is that
of the left one. -/
theorem type?_combine_eq_some_iff (left right : Inference) (operator : Token)
    (type : NumType) :
    (left.combine operator right).type? = some type ↔
      left.type? = some type ∧ right.type?.isSome = true := by
  rw [type?_combine]
  cases left.type? <;> cases right.type? <;> simp

/-- If the type of an expression is that of its leftmost leaf, and all leaves
have types, then there is a type exactly if all leaves have types. -/
theorem isSome_type?_iff_of_leftmost {expr : Expr} {type? : Option NumType}
    (h : ∀ type, type? = some type ↔ expr.leftmost.type? table = some type ∧
      ∀ leaf ∈ expr.leaves, (leaf.type? table).isSome = true) :
    type?.isSome = true ↔
      ∀ leaf ∈ expr.leaves, (leaf.type? table).isSome = true := by
  constructor
  · intro hSome
    obtain ⟨type, hType⟩ := Option.isSome_iff_exists.1 hSome
    exact ((h type).1 hType).2
  · intro hLeaves
    have hHead : expr.leftmost ∈ expr.leaves :=
      List.mem_of_mem_head? expr.head?_leaves
    obtain ⟨type, hType⟩ := Option.isSome_iff_exists.1 (hLeaves _ hHead)
    exact Option.isSome_of_eq_some ((h type).2 ⟨hType, hLeaves⟩)

/-- The type of an expression is that of its leftmost leaf, if all leaves
have types. -/
theorem type?_ofExpr_eq_some_iff (expr : Expr) (type : NumType) :
    (Inference.ofExpr table expr).type? = some type ↔
      expr.leftmost.type? table = some type ∧
        ∀ leaf ∈ expr.leaves, (leaf.type? table).isSome = true := by
  induction expr generalizing type with
  | binary left operator right ihLeft ihRight =>
      rw [Inference.ofExpr_binary, type?_combine_eq_some_iff, ihLeft,
        isSome_type?_iff_of_leftmost ihRight, Expr.leaves,
        List.forall_mem_append, and_assoc]
      rfl
  | unary operator operand ih => exact ih type
  | group inner ih => exact ih type
  | literal value =>
      rw [Inference.ofExpr_literal, type?_literal, Expr.leaves,
        List.forall_mem_singleton]
      exact ⟨fun h => ⟨h, Option.isSome_of_eq_some h⟩, And.left⟩
  | var name =>
      rw [Inference.ofExpr_var, type?_ofVar, Expr.leaves,
        List.forall_mem_singleton]
      exact ⟨fun h => ⟨h, Option.isSome_of_eq_some h⟩, And.left⟩

theorem isSome_type?_ofExpr_iff (expr : Expr) :
    (Inference.ofExpr table expr).type?.isSome = true ↔
      ∀ leaf ∈ expr.leaves, (leaf.type? table).isSome = true :=
  isSome_type?_iff_of_leftmost (type?_ofExpr_eq_some_iff expr)

/-- Every leaf but the names that are not declared, texts, truth values and
`nil` has a type. -/
theorem forall_isSome_type?_iff (leaves : List Leaf) :
    (∀ leaf ∈ leaves, (leaf.type? table).isSome = true) ↔
      (∀ name, .var name ∈ leaves → table.declares name.lexeme = true) ∧
        (∀ text, .literal (.string text) ∉ leaves) ∧
        (∀ value, .literal (.boolean value) ∉ leaves) ∧
        .literal .nil ∉ leaves := by
  constructor
  · intro h
    refine ⟨?_, ?_, ?_, ?_⟩
    · intro name hMem
      rw [← SymbolTable.isSome_typeOf?]
      exact h _ hMem
    · exact fun text hMem => Bool.false_ne_true (h _ hMem)
    · exact fun value hMem => Bool.false_ne_true (h _ hMem)
    · exact fun hMem => Bool.false_ne_true (h _ hMem)
  · rintro ⟨hNames, hTexts, hTruths, hNil⟩ leaf hMem
    cases leaf with
    | var name =>
        show (table.typeOf? name.lexeme).isSome = true
        rw [SymbolTable.isSome_typeOf?]
        exact hNames name hMem
    | literal value =>
        cases value with
        | integer n => rfl
        | real x => rfl
        | string text => exact absurd hMem (hTexts text)
        | boolean value => exact absurd hMem (hTruths value)
        | nil => exact absurd hMem hNil

/-- Where nothing is reported all leaves have the type of the expression. -/
theorem type?_of_mem_leaves (expr : Expr) {type : NumType}
    (hErrors : (Inference.ofExpr table expr).errors = #[])
    (hType : (Inference.ofExpr table expr).type? = some type) :
    ∀ leaf ∈ expr.leaves, leaf.type? table = some type := by
  induction expr generalizing type with
  | binary left operator right ihLeft ihRight =>
      rw [Inference.ofExpr_binary] at hErrors hType
      obtain ⟨hLeftErrors, hRightErrors, hSame⟩ :=
        (errors_combine_eq_empty_iff ..).1 hErrors
      obtain ⟨hLeft, hSome⟩ := (type?_combine_eq_some_iff ..).1 hType
      obtain ⟨other, hRight⟩ := Option.isSome_iff_exists.1 hSome
      obtain rfl := hSame _ _ hLeft hRight
      rw [Expr.leaves, List.forall_mem_append]
      exact ⟨ihLeft hLeftErrors hLeft, ihRight hRightErrors hRight⟩
  | unary operator operand ih => exact ih hErrors hType
  | group inner ih => exact ih hErrors hType
  | literal value | var name =>
      exact List.forall_mem_singleton.2 ((type?_ofExpr_eq_some_iff _ _).1 hType).1

end Types

/-! ## Names that are not declared -/

/-- Does the fault tell of a name that is used without a declaration? -/
def SemanticFault.isUsedUndeclared : SemanticFault → Bool
  | .usedUndeclared _ => true
  | _ => false

/-- Each name that is not declared is reported, wherever it stands. -/
theorem undeclared_ofExpr (table : SymbolTable) (expr : Expr) :
    (Inference.ofExpr table expr).errors.toList.filter
        (·.fault.isUsedUndeclared) =
      (expr.names.filter fun name => !table.declares name.lexeme).map
        fun name => ⟨name.line, .usedUndeclared name.lexeme⟩ := by
  induction expr with
  | binary left operator right ihLeft ihRight =>
      rw [Inference.ofExpr_binary, filter_errors_combine fun _ _ _ => rfl,
        ihLeft, ihRight, Expr.names_binary, List.filter_append,
        List.map_append]
  | unary operator operand ih => exact ih
  | group inner ih => exact ih
  | literal value => rfl
  | var name =>
      have hDeclares := table.isSome_typeOf? name.lexeme
      rw [Inference.ofExpr_var, Inference.ofVar]
      cases hType : table.typeOf? name.lexeme with
      | none =>
          rw [hType] at hDeclares
          simp [Expr.names, Expr.leaves, Leaf.name?, ← hDeclares,
            SemanticFault.isUsedUndeclared]
      | some type =>
          rw [hType] at hDeclares
          simp [Expr.names, Expr.leaves, Leaf.name?, ← hDeclares]

/-- **What inference comes to is told by the leaves.** An expression has a
type if and only if all names in it are declared and there are no texts, no
truth values and no `nil` in it, and then the type is that of its leftmost
leaf. Each occurrence of a name that is not declared is reported once, on
its line, and in the order in which they are written. If nothing is
reported then the type, if there is one, is that of all leaves. -/
theorem infer_by_leaves (table : SymbolTable) (expr : Expr) :
    ((Inference.ofExpr table expr).type?.isSome = true ↔
      (∀ name, .var name ∈ expr.leaves → table.declares name.lexeme = true) ∧
        (∀ text, .literal (.string text) ∉ expr.leaves) ∧
        (∀ value, .literal (.boolean value) ∉ expr.leaves) ∧
        .literal .nil ∉ expr.leaves) ∧
    (∀ type, (Inference.ofExpr table expr).type? = some type →
      expr.leftmost.type? table = some type) ∧
    expr.leaves.head? = some expr.leftmost ∧
    (Inference.ofExpr table expr).errors.toList.filter
        (·.fault.isUsedUndeclared) =
      (expr.names.filter fun name => !table.declares name.lexeme).map
        (fun name => ⟨name.line, .usedUndeclared name.lexeme⟩) ∧
    ((Inference.ofExpr table expr).errors = #[] →
      ∀ type, (Inference.ofExpr table expr).type? = some type →
        ∀ leaf ∈ expr.leaves, leaf.type? table = some type) := by
  refine ⟨?_, ?_, expr.head?_leaves, undeclared_ofExpr table expr, ?_⟩
  · rw [← forall_isSome_type?_iff, isSome_type?_ofExpr_iff]
  · exact fun type hType => ((type?_ofExpr_eq_some_iff expr type).1 hType).1
  · exact fun hErrors type hType => type?_of_mem_leaves expr hErrors hType

end ImpFront
