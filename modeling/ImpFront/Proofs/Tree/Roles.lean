import ImpFront.Proofs.Grammar.Marks
import ImpFront.Proofs.Grammar.Shape
import ImpFront.Proofs.Source.Constants

/-!
# Tokens in their roles

A token in a tree has a role there: it is the type or the name in a
declaration, a variable, the operator of an assignment, or an operator
before or between operands. What is known of tokens is often known by their
role, and what is asked of them is too. `Roles` says of each role what the
tokens in it have to be, and `Fills` that those of a tree are.

That what was read from a source text consists of tokens of that text is
known from the marks, and which kinds stand in which role from the shape.
Both together say what every role is filled with.

## Main results

* `Stmt.fills_of_marks` — what is true of all marks, in every role.
* `Stmt.WellShaped.fills` — the kinds for each role.
* `Source.allFill_stmts` — the statements read from a source text.
-/

namespace ImpFront

/-! ## Roles -/

/-- What the tokens of a tree have to be, by the role that they have in it,
and what its values have to be. -/
structure Roles where
  /-- The type in a declaration. -/
  type : Token → Prop
  /-- A name, in a declaration or wherever a variable is meant. -/
  name : Token → Prop
  /-- The operator of an assignment. -/
  assignment : Token → Prop
  /-- An operator before its operand. -/
  unary : Token → Prop
  /-- An operator between its operands. -/
  binary : Token → Prop
  /-- A value. -/
  value : Literal → Prop

/-- The same for all tokens, whatever their role. -/
def Roles.uniform (token : Token → Prop) (value : Literal → Prop) : Roles where
  type := token
  name := token
  assignment := token
  unary := token
  binary := token
  value := value

/-- The same for all tokens, and in each role a kind that belongs there. -/
def Roles.sorted (token : Token → Prop) (value : Literal → Prop) : Roles where
  type t := (t.kind = .long ∨ t.kind = .double) ∧ token t
  name t := t.kind = .identifier ∧ token t
  assignment t := t.kind.isAssignment = true ∧ token t
  unary t := (t.kind = .not ∨ t.kind = .minus) ∧ token t
  binary t := t.kind.looseness?.isSome = true ∧ token t
  value := value

/-- What both ask for. -/
def Roles.and (first second : Roles) : Roles where
  type t := first.type t ∧ second.type t
  name t := first.name t ∧ second.name t
  assignment t := first.assignment t ∧ second.assignment t
  unary t := first.unary t ∧ second.unary t
  binary t := first.binary t ∧ second.binary t
  value v := first.value v ∧ second.value v

namespace Expr

/-- The tokens and values of the expression are what their roles ask for. -/
def Fills (roles : Roles) : Expr → Prop
  | binary left operator right =>
    left.Fills roles ∧ roles.binary operator ∧ right.Fills roles
  | unary operator operand => roles.unary operator ∧ operand.Fills roles
  | literal value => roles.value value
  | var name => roles.name name
  | group inner => inner.Fills roles

end Expr

namespace Stmt

mutual

/-- The tokens and values of the statement are what their roles ask for. -/
def Fills (roles : Roles) : Stmt → Prop
  | declare type name => roles.type type ∧ roles.name name
  | expression value => value.Fills roles
  | assign name operator value =>
    roles.name name ∧ roles.assignment operator ∧ value.Fills roles
  | read name => roles.name name
  | write value => value.Fills roles
  | block members => AllFill roles members
  | ifThen condition thenPart => condition.Fills roles ∧ thenPart.Fills roles
  | ifThenElse condition thenPart elsePart =>
    condition.Fills roles ∧ thenPart.Fills roles ∧ elsePart.Fills roles
  | whileLoop condition body => condition.Fills roles ∧ body.Fills roles

/-- All of the statements are like that. -/
def AllFill (roles : Roles) : List Stmt → Prop
  | [] => True
  | stmt :: stmts => stmt.Fills roles ∧ AllFill roles stmts

end

end Stmt

section And

variable {first second : Roles}

theorem Expr.Fills.and {expr : Expr} (h : expr.Fills first)
    (h' : expr.Fills second) : expr.Fills (first.and second) := by
  induction expr with
  | binary left operator right ihLeft ihRight =>
      exact ⟨ihLeft h.1 h'.1, ⟨h.2.1, h'.2.1⟩, ihRight h.2.2 h'.2.2⟩
  | unary operator operand ih => exact ⟨⟨h.1, h'.1⟩, ih h.2 h'.2⟩
  | literal value => exact ⟨h, h'⟩
  | var name => exact ⟨h, h'⟩
  | group inner ih => exact ih h h'

mutual

theorem Stmt.Fills.and {stmt : Stmt} (h : stmt.Fills first)
    (h' : stmt.Fills second) : stmt.Fills (first.and second) := by
  match stmt with
  | .declare _ _ => exact ⟨⟨h.1, h'.1⟩, ⟨h.2, h'.2⟩⟩
  | .expression _ | .write _ => exact Expr.Fills.and h h'
  | .assign _ _ _ =>
      exact ⟨⟨h.1, h'.1⟩, ⟨h.2.1, h'.2.1⟩, Expr.Fills.and h.2.2 h'.2.2⟩
  | .read _ => exact ⟨h, h'⟩
  | .block _ => exact Stmt.AllFill.and h h'
  | .ifThen _ _ | .whileLoop _ _ =>
      exact ⟨Expr.Fills.and h.1 h'.1, Stmt.Fills.and h.2 h'.2⟩
  | .ifThenElse _ _ _ =>
      exact ⟨Expr.Fills.and h.1 h'.1, Stmt.Fills.and h.2.1 h'.2.1,
        Stmt.Fills.and h.2.2 h'.2.2⟩

theorem Stmt.AllFill.and {stmts : List Stmt} (h : Stmt.AllFill first stmts)
    (h' : Stmt.AllFill second stmts) :
    Stmt.AllFill (first.and second) stmts := by
  match stmts with
  | [] => trivial
  | _ :: _ => exact ⟨Stmt.Fills.and h.1 h'.1, Stmt.AllFill.and h.2 h'.2⟩

end

end And

/-! ## Parts -/

namespace Stmt

mutual

/-- The statement and all statements in it. -/
def parts : Stmt → List Stmt
  | declare type name => [declare type name]
  | expression value => [expression value]
  | assign name operator value => [assign name operator value]
  | read name => [read name]
  | write value => [write value]
  | block members => block members :: partsAll members
  | ifThen condition thenPart =>
    ifThen condition thenPart :: thenPart.parts
  | ifThenElse condition thenPart elsePart =>
    ifThenElse condition thenPart elsePart :: (thenPart.parts ++ elsePart.parts)
  | whileLoop condition body => whileLoop condition body :: body.parts

/-- The statements and all statements in them. -/
def partsAll : List Stmt → List Stmt
  | [] => []
  | stmt :: stmts => stmt.parts ++ partsAll stmts

end

mutual

/-- What is true of the roles in a statement is true of those in its parts. -/
theorem Fills.of_mem_parts {roles : Roles} {stmt part : Stmt}
    (h : stmt.Fills roles) (hPart : part ∈ stmt.parts) : part.Fills roles := by
  match stmt with
  | declare _ _ | expression _ | assign _ _ _ | read _ | write _ =>
      obtain rfl := List.mem_singleton.1 hPart
      exact h
  | block _ =>
      rcases List.mem_cons.1 hPart with rfl | hIn
      · exact h
      · exact AllFill.of_mem_partsAll h hIn
  | ifThen _ _ | whileLoop _ _ =>
      rcases List.mem_cons.1 hPart with rfl | hIn
      · exact h
      · exact Fills.of_mem_parts h.2 hIn
  | ifThenElse _ _ _ =>
      rcases List.mem_cons.1 hPart with rfl | hIn
      · exact h
      · rcases List.mem_append.1 hIn with hThen | hElse
        · exact Fills.of_mem_parts h.2.1 hThen
        · exact Fills.of_mem_parts h.2.2 hElse

theorem AllFill.of_mem_partsAll {roles : Roles} {stmts : List Stmt}
    {part : Stmt} (h : AllFill roles stmts) (hPart : part ∈ partsAll stmts) :
    part.Fills roles := by
  match stmts with
  | [] => cases hPart
  | _ :: _ =>
      rcases List.mem_append.1 hPart with hFirst | hRest
      · exact Fills.of_mem_parts h.1 hFirst
      · exact AllFill.of_mem_partsAll h.2 hRest

end

end Stmt

/-! ## What is true of all marks -/

section Marks

variable {token : Token → Prop} {value : Literal → Prop}

/-- The marks are of tokens and values with these properties. -/
def AllMarks (token : Token → Prop) (value : Literal → Prop)
    (marks : List Mark) : Prop :=
  (∀ t, .token t ∈ marks → token t) ∧ ∀ v, .constant v ∈ marks → value v

namespace AllMarks

variable {first second marks : List Mark}

theorem of_subset (h : AllMarks token value marks) (hSubset : first ⊆ marks) :
    AllMarks token value first :=
  ⟨fun t hMem => h.1 t (hSubset hMem), fun v hMem => h.2 v (hSubset hMem)⟩

theorem append (h : AllMarks token value (first ++ second)) :
    AllMarks token value first ∧ AllMarks token value second :=
  ⟨h.of_subset (List.subset_append_left _ _),
    h.of_subset (List.subset_append_right _ _)⟩

theorem head {t : Token} (h : AllMarks token value (.token t :: marks)) :
    token t :=
  h.1 t List.mem_cons_self

theorem tail {mark : Mark} (h : AllMarks token value (mark :: marks)) :
    AllMarks token value marks :=
  h.of_subset (List.subset_cons_self _ _)

end AllMarks

theorem Expr.fills_of_marks {expr : Expr}
    (h : AllMarks token value expr.marks) :
    expr.Fills (.uniform token value) := by
  induction expr with
  | binary left operator right ihLeft ihRight =>
      obtain ⟨hLeft, hRest⟩ := h.append
      exact ⟨ihLeft hLeft, hRest.head, ihRight hRest.tail⟩
  | unary operator operand ih => exact ⟨h.head, ih h.tail⟩
  | literal v => exact h.2 v List.mem_cons_self
  | var name => exact h.head
  | group inner ih => exact ih h

mutual

/-- What is true of all marks of a statement is true in every role. -/
theorem Stmt.fills_of_marks {stmt : Stmt}
    (h : AllMarks token value stmt.marks) :
    stmt.Fills (.uniform token value) := by
  match stmt with
  | .declare type name => exact ⟨h.head, h.tail.head⟩
  | .expression _ | .write _ => exact Expr.fills_of_marks h
  | .assign name operator _ =>
      exact ⟨h.head, h.tail.head, Expr.fills_of_marks h.tail.tail⟩
  | .read name => exact h.head
  | .block members =>
      exact Stmt.allFill_of_marks
        (h.of_subset (Stmt.marksAll_subset_block members))
  | .ifThen _ _ | .whileLoop _ _ =>
      obtain ⟨hCondition, hPart⟩ := h.append
      exact ⟨Expr.fills_of_marks hCondition, Stmt.fills_of_marks hPart⟩
  | .ifThenElse _ _ _ =>
      obtain ⟨hCondition, hParts⟩ := h.append
      obtain ⟨hThen, hElse⟩ := hParts.append
      exact ⟨Expr.fills_of_marks hCondition, Stmt.fills_of_marks hThen,
        Stmt.fills_of_marks hElse⟩

theorem Stmt.allFill_of_marks {stmts : List Stmt}
    (h : AllMarks token value (Stmt.marksAll stmts)) :
    Stmt.AllFill (.uniform token value) stmts := by
  match stmts with
  | [] => trivial
  | first :: rest =>
      obtain ⟨hFirst, hRest⟩ := h.append
      exact ⟨Stmt.fills_of_marks hFirst, Stmt.allFill_of_marks hRest⟩

end

/-! ## The kinds for each role -/

theorem Expr.WellShaped.fills {expr : Expr} (h : expr.WellShaped)
    (hUniform : expr.Fills (.uniform token value)) :
    expr.Fills (.sorted token value) := by
  induction h with
  | literal => exact hUniform
  | var hName => exact ⟨hName, hUniform⟩
  | group _ ih => exact ih hUniform
  | unary hOperator _ _ ih =>
      exact ⟨⟨hOperator, hUniform.1⟩, ih hUniform.2⟩
  | binary hOperator _ _ _ _ ihLeft ihRight =>
      obtain ⟨hLeft, hToken, hRight⟩ := hUniform
      exact ⟨ihLeft hLeft, ⟨Option.isSome_of_eq_some hOperator, hToken⟩,
        ihRight hRight⟩

mutual

/-- In a well-shaped statement, every role has a token of its kinds. -/
theorem Stmt.WellShaped.fills {stmt : Stmt} (h : stmt.WellShaped)
    (hUniform : stmt.Fills (.uniform token value)) :
    stmt.Fills (.sorted token value) := by
  match stmt, h with
  | .declare type name, .declare hType hName =>
      exact ⟨⟨hType, hUniform.1⟩, ⟨hName, hUniform.2⟩⟩
  | .expression _, .expression hValue | .write _, .write hValue =>
      exact Expr.WellShaped.fills hValue hUniform
  | .assign name operator _, .assign hName hOperator hValue =>
      exact ⟨⟨hName, hUniform.1⟩, ⟨hOperator, hUniform.2.1⟩,
        Expr.WellShaped.fills hValue hUniform.2.2⟩
  | .read name, .read hName => exact ⟨hName, hUniform⟩
  | .block members, .block hMembers =>
      exact Stmt.allFill_of_wellShaped hMembers hUniform
  | .ifThen _ _, .ifThen hCondition hPart _
  | .whileLoop _ _, .whileLoop hCondition hPart _ =>
      exact ⟨Expr.WellShaped.fills hCondition hUniform.1,
        hPart.fills hUniform.2⟩
  | .ifThenElse _ _ _, .ifThenElse hCondition hThen _ _ hElse _ =>
      exact ⟨Expr.WellShaped.fills hCondition hUniform.1,
        hThen.fills hUniform.2.1, hElse.fills hUniform.2.2⟩

theorem Stmt.allFill_of_wellShaped {stmts : List Stmt}
    (h : ∀ stmt ∈ stmts, stmt.WellShaped)
    (hUniform : Stmt.AllFill (.uniform token value) stmts) :
    Stmt.AllFill (.sorted token value) stmts := by
  match stmts with
  | [] => trivial
  | first :: rest =>
      obtain ⟨hFirst, hRest⟩ := List.forall_mem_cons.1 h
      exact ⟨hFirst.fills hUniform.1,
        Stmt.allFill_of_wellShaped hRest hUniform.2⟩

end

end Marks

/-! ## What is read from a source -/

namespace Source

open Grammar (Denotes)

/-- The characters of operators. -/
def isSignChar (c : Char) : Bool :=
  ['+', '-', '*', '/', '<', '>', '=', '!', '&', '|'].contains c

/-- Is the kind an operator, of whatever use? -/
def isOperator (kind : Token.Kind) : Bool :=
  kind.isAssignment || kind.isUnary || kind.looseness?.isSome

/-- Operators consist of signs. -/
theorem isSignChar_of_hasForm {kind : Token.Kind} {lexeme : String}
    (hKind : isOperator kind = true) (hForm : HasForm kind lexeme) :
    lexeme.toList ≠ [] ∧ ∀ c ∈ lexeme.toList, isSignChar c = true := by
  cases kind with
  | assign | plusAssign | minusAssign | timesAssign | divideAssign
  | not | times | divide | plus | minus | greater | greaterEqual | less
  | lessEqual | equal | notEqual | and | or =>
      obtain rfl := Option.some.inj hForm
      exact ⟨by decide, List.all_eq_true.1 (by decide)⟩
  | _ => cases hKind

/-- All tokens have the form of their kind, each stands in a role of its
kind, and the values are those of constants. -/
def roles : Roles :=
  .sorted (fun token => HasForm token.kind token.lexeme) fun value =>
    ∃ token : Token, HasForm token.kind token.lexeme ∧ Denotes token value

/-- What is read from a source text fills the roles of source texts. -/
theorem allFill_stmts (source : String) :
    Stmt.AllFill roles (Program.ofTokens (scan source).tokens).stmts := by
  have hKept := Grammar.keepsAll_stmts (scan source).tokens
  have hForm : ∀ token ∈ programTokens (scan source).tokens,
      HasForm token.kind token.lexeme := by
    intro token hMem
    exact hasForm_of_mem (mem_of_mem_programTokens hMem)
      (Grammar.kind_ne_of_mem_programTokens hMem)
  refine Stmt.allFill_of_wellShaped
    (hKept.wellShaped (Grammar.members_elsesNearest false _))
    (Stmt.allFill_of_marks ⟨?_, ?_⟩)
  · intro token hMark
    exact hForm token (hKept.traced.mem hMark)
  · intro value hMark
    obtain ⟨token, hMem, hValue⟩ := hKept.traced.exists_denotes hMark
    exact ⟨token, hForm token hMem, hValue⟩

end Source

end ImpFront
