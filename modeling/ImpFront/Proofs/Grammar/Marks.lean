import Mathlib.Data.List.Forall2
import ImpFront.Proofs.Grammar.Kept

/-!
# Trees bear the marks of their tokens

A tree keeps some of the tokens it was read from: the words of types, the
names and the operators. Of a constant it keeps the value alone. These are
its *marks*, from left to right in the order in which a source text has
them. Punctuation and the words of statements leave no mark.

A declaration of several names is a block of declarations that share the
token of their type, and that token is marked once. Such a block cannot be
told from a block in braces whose members happen to have the same token
for their type; that one is marked once as well, which asks for less of the
tokens (`marks_block_sublist`).

The marks of a program fit some of its tokens, each its own and in their
order. So reading makes nothing up, takes nothing twice, and moves nothing.

## Main results

* `Traced.append`, `Traced.mono` — how marks and tokens are put together.
* `IsExpr.traced`, `KeepsStmt.traced` — expressions and statements.
* `marks_fit_in_order` — programs.
-/

namespace ImpFront

open Grammar

/-! ## Marks -/

/-- What a tree keeps of a token that it was read from. -/
inductive Mark
  | token (token : Token)
  | constant (value : Literal)

/-- The token may have left the mark: it is the one that was kept, or a
constant of the value that was kept. -/
inductive Mark.Fits : Mark → Token → Prop
  | token {token : Token} : Fits (.token token) token
  | constant {token : Token} {value : Literal}
      (hValue : Denotes token value) : Fits (.constant value) token

/-- The marks of an expression. -/
def Expr.marks : Expr → List Mark
  | binary left operator right => left.marks ++ .token operator :: right.marks
  | unary operator operand => .token operator :: operand.marks
  | literal value => [.constant value]
  | var name => [.token name]
  | group inner => inner.marks

namespace Stmt

/-- The names in declarations that all have the token given for their
type. -/
def namesOf? (type : Token) : List Stmt → Option (List Token)
  | [] => some []
  | declare type' name :: stmts =>
    if type' = type then (namesOf? type stmts).map (name :: ·) else none
  | _ :: _ => none

/-- The type and the names of a declaration of several names. -/
def several? : List Stmt → Option (Token × List Token)
  | declare type first :: second :: stmts =>
    (namesOf? type (second :: stmts)).map fun names => (type, first :: names)
  | _ => none

mutual

/-- The marks of a statement. -/
def marks : Stmt → List Mark
  | declare type name => [.token type, .token name]
  | expression value => value.marks
  | assign name operator value =>
    .token name :: .token operator :: value.marks
  | read name => [.token name]
  | write value => value.marks
  | block members =>
    match several? members with
    | some (type, names) => .token type :: names.map .token
    | none => marksAll members
  | ifThen condition thenPart => condition.marks ++ thenPart.marks
  | ifThenElse condition thenPart elsePart =>
    condition.marks ++ (thenPart.marks ++ elsePart.marks)
  | whileLoop condition body => condition.marks ++ body.marks

/-- The marks of statements one after another. -/
def marksAll : List Stmt → List Mark
  | [] => []
  | stmt :: stmts => stmt.marks ++ marksAll stmts

end

theorem eq_map_of_namesOf? {type : Token} {stmts : List Stmt}
    {names : List Token} (h : namesOf? type stmts = some names) :
    stmts = names.map (declare type) := by
  fun_induction namesOf? type stmts generalizing names with
  | case1 => cases h; rfl
  | case2 name stmts ih =>
      obtain ⟨others, hOthers, rfl⟩ := Option.map_eq_some_iff.1 h
      rw [List.map_cons, ← ih hOthers]
  | case3 => cases h
  | case4 => cases h

theorem namesOf?_map (type : Token) (names : List Token) :
    namesOf? type (names.map (declare type)) = some names := by
  induction names with
  | nil => rfl
  | cons name names ih => rw [List.map_cons, namesOf?, if_pos rfl, ih]; rfl

theorem eq_map_of_several? {type : Token} {stmts : List Stmt}
    {names : List Token} (h : several? stmts = some (type, names)) :
    stmts = names.map (declare type) := by
  unfold several? at h
  split at h
  · next type' first second stmts' =>
    obtain ⟨others, hOthers, hSame⟩ := Option.map_eq_some_iff.1 h
    cases hSame
    rw [List.map_cons, ← eq_map_of_namesOf? hOthers]
  · cases h

/-- A type is marked once for all names that it is given. -/
theorem marks_declareAll (type name : Token) (names : List Token) :
    (declareAll type (name :: names)).marks =
      .token type :: (name :: names).map .token := by
  cases names with
  | nil => rfl
  | cons second names =>
      have hSeveral : several? ((name :: second :: names).map (declare type)) =
          some (type, name :: second :: names) := by
        show (namesOf? type ((second :: names).map (declare type))).map _ = _
        rw [namesOf?_map]
        rfl
      show marks (block ((name :: second :: names).map (declare type))) = _
      rw [marks, hSeveral]

/-- Behind the first of several declarations, marking the type once is
marking less. -/
theorem map_token_sublist_marksAll (type : Token) (names : List Token) :
    (names.map Mark.token).Sublist (marksAll (names.map (declare type))) := by
  induction names with
  | nil => exact List.Sublist.slnil
  | cons name names ih => exact (ih.cons_cons _).cons _

/-- A block has no marks but those of its members. -/
theorem marks_block_sublist (members : List Stmt) :
    (marks (block members)).Sublist (marksAll members) := by
  rw [marks]
  split
  · next type names hSeveral =>
    have hMembers := eq_map_of_several? hSeveral
    cases names with
    | nil =>
        rw [hMembers] at hSeveral
        cases hSeveral
    | cons name names =>
        rw [hMembers]
        exact ((map_token_sublist_marksAll type names).cons_cons _).cons_cons _
  · exact List.Sublist.refl _

theorem marksAll_declare_subset (type : Token) (names : List Token) :
    marksAll (names.map (declare type)) ⊆ .token type :: names.map .token := by
  induction names with
  | nil => exact List.nil_subset _
  | cons name names ih =>
      rw [List.map_cons, marksAll, marks]
      refine List.append_subset.2 ⟨by simp, List.Subset.trans ih ?_⟩
      exact List.cons_subset_cons _ (List.subset_cons_self _ _)

/-- A block has all the marks of its members, though one that several of
them have it may have only once. -/
theorem marksAll_subset_block (members : List Stmt) :
    marksAll members ⊆ marks (block members) := by
  rw [marks]
  split
  · next type names hSeveral =>
    rw [eq_map_of_several? hSeveral]
    exact marksAll_declare_subset type names
  · exact List.Subset.refl _

end Stmt

/-! ## Traces -/

/-- The marks fit tokens of the list, each its own, in their order. -/
def Traced (marks : List Mark) (tokens : List Token) : Prop :=
  List.SublistForall₂ Mark.Fits marks tokens

namespace Traced

variable {marks first second : List Mark} {tokens tokens' : List Token}

/-- A mark was left by one of the tokens. -/
theorem exists_fits {mark : Mark} (h : Traced marks tokens)
    (hMark : mark ∈ marks) : ∃ token ∈ tokens, mark.Fits token := by
  induction h with
  | nil => cases hMark
  | cons hFits _ ih =>
      rcases List.mem_cons.1 hMark with rfl | hRest
      · exact ⟨_, List.mem_cons_self, hFits⟩
      · obtain ⟨token, hMem, hToken⟩ := ih hRest
        exact ⟨token, List.mem_cons_of_mem _ hMem, hToken⟩
  | cons_right _ ih =>
      obtain ⟨token, hMem, hToken⟩ := ih hMark
      exact ⟨token, List.mem_cons_of_mem _ hMem, hToken⟩

/-- A token that left its own mark is one of those that were read. -/
theorem mem {token : Token} (h : Traced marks tokens)
    (hMark : .token token ∈ marks) : token ∈ tokens := by
  obtain ⟨_, hMem, hFits⟩ := h.exists_fits hMark
  cases hFits
  exact hMem

/-- A value that is kept is denoted by one of the tokens. -/
theorem exists_denotes {value : Literal} (h : Traced marks tokens)
    (hMark : .constant value ∈ marks) :
    ∃ token ∈ tokens, Denotes token value := by
  obtain ⟨token, hMem, hFits⟩ := h.exists_fits hMark
  cases hFits with
  | constant hValue => exact ⟨token, hMem, hValue⟩

/-- More tokens may stand between those that left marks. -/
theorem mono (h : Traced marks tokens) (hTokens : tokens.Sublist tokens') :
    Traced marks tokens' := by
  obtain ⟨kept, hFits, hKept⟩ := List.sublistForall₂_iff.1 h
  exact List.sublistForall₂_iff.2 ⟨kept, hFits, hKept.trans hTokens⟩

/-- Marks may be left out. -/
theorem of_sublist (h : Traced marks tokens) (hMarks : first.Sublist marks) :
    Traced first tokens := by
  induction h generalizing first with
  | nil =>
      rw [List.sublist_nil.1 hMarks]
      exact .nil
  | cons hFits _ ih =>
      cases hMarks with
      | cons _ hMarks => exact .cons_right (ih hMarks)
      | cons_cons _ hMarks => exact .cons hFits (ih hMarks)
  | cons_right _ ih => exact .cons_right (ih hMarks)

theorem append (h : Traced first tokens) (h' : Traced second tokens') :
    Traced (first ++ second) (tokens ++ tokens') := by
  obtain ⟨kept, hFits, hKept⟩ := List.sublistForall₂_iff.1 h
  obtain ⟨kept', hFits', hKept'⟩ := List.sublistForall₂_iff.1 h'
  exact List.sublistForall₂_iff.2
    ⟨kept ++ kept', List.rel_append hFits hFits', hKept.append hKept'⟩

/-- A token that leaves no mark. -/
theorem skip (h : Traced marks tokens) (token : Token) :
    Traced marks (token :: tokens) :=
  .cons_right h

/-- A token that is kept. -/
theorem keep (h : Traced marks tokens) (token : Token) :
    Traced (.token token :: marks) (token :: tokens) :=
  .cons .token h

/-- Tokens behind all that left marks. -/
theorem append_right (h : Traced marks tokens) (behind : List Token) :
    Traced marks (tokens ++ behind) :=
  h.mono (List.sublist_append_left tokens behind)

end Traced

/-! ## What is read and kept -/

namespace Grammar

theorem IsExpr.traced {k : Nat} {tokens : List Token} {expr : Expr}
    (h : IsExpr k tokens expr) : Traced expr.marks tokens := by
  induction h with
  | constant hValue => exact .cons (.constant hValue) .nil
  | name hName => exact .keep .nil _
  | group _ _ _ ih => exact (ih.append_right _).skip _
  | unary _ _ ih => exact ih.keep _
  | tighter _ ih => exact ih
  | binary _ _ _ ihLeft ihRight => exact ihLeft.append (ihRight.keep _)

theorem IsCondition.traced {tokens : List Token} {condition : Expr}
    (h : IsCondition tokens condition) : Traced condition.marks tokens := by
  obtain ⟨_, hCondition, _⟩ := h
  exact (hCondition.traced.append_right _).skip _

theorem IsIfHead.traced {tokens : List Token} {condition : Expr}
    (h : IsIfHead tokens condition) : Traced condition.marks tokens := by
  obtain ⟨hCondition, _⟩ := h
  exact hCondition.traced.append_right _

theorem IsNames.traced {tokens names : List Token} (h : IsNames tokens names) :
    Traced (names.map .token) tokens := by
  induction h with
  | nil => exact .nil
  | cons _ _ _ ih => exact (ih.keep _).skip _

theorem IsStmt.traced_of_plain {tokens : List Token} {stmt : Stmt}
    (h : IsStmt tokens stmt) (hPlain : stmt.isPlain = true) :
    Traced stmt.marks tokens := by
  cases h with
  | read => exact ((Traced.keep .nil _).skip _).skip _
  | write _ _ hValue => exact ((hValue.traced.append_right _).skip _).skip _
  | assign _ _ hValue => exact ((hValue.traced.append_right _).keep _).keep _
  | expression hValue => exact hValue.traced.append_right _
  | ifThen => cases hPlain
  | ifThenElse => cases hPlain
  | whileLoop => cases hPlain
  | block => cases hPlain

mutual

theorem KeepsDecl.traced {tokens : List Token} {stmt : Stmt}
    (h : KeepsDecl tokens stmt) : Traced stmt.marks tokens := by
  match h with
  | .names _ _ hMore _ =>
      rw [Stmt.marks_declareAll]
      exact ((hMore.traced.append_right _).keep _).keep _
  | .statement hStmt => exact hStmt.traced

theorem KeepsStmt.traced {tokens : List Token} {stmt : Stmt}
    (h : KeepsStmt tokens stmt) : Traced stmt.marks tokens := by
  match h with
  | .plain hStmt hPlain => exact hStmt.traced_of_plain hPlain
  | .ifThen _ hHead hFirst => exact (hHead.traced.append hFirst.traced).skip _
  | .ifThenElse _ hHead hFirst _ hSecond =>
      exact (hHead.traced.append
        (hFirst.traced.append (hSecond.traced.skip _))).skip _
  | .whileLoop _ hHead hBody => exact (hHead.traced.append hBody.traced).skip _
  | .block _ hMembers _ =>
      have hBlock := hMembers.traced.of_sublist (Stmt.marks_block_sublist _)
      exact (hBlock.append_right _).skip _

theorem KeepsAll.traced {tokens : List Token} {stmts : List Stmt}
    (h : KeepsAll tokens stmts) : Traced (Stmt.marksAll stmts) tokens := by
  match h with
  | .nil => exact .nil
  | .skip hRest => exact hRest.traced.skip _
  | .cons hFirst hRest => exact hFirst.traced.append hRest.traced

end

end Grammar

/-- **Reading invents, duplicates and reorders nothing.** Whatever the
tokens are, broken or not, the marks of the statements that are read of
them, from left to right, fit tokens of the program at indices that grow
from each mark to the next. -/
theorem marks_fit_in_order (tokens : List Token) :
    ∃ indices : List (Fin (programTokens tokens).length),
      indices.Pairwise (· < ·) ∧
      List.Forall₂ Mark.Fits
        (Stmt.marksAll (Program.ofTokens tokens).stmts)
        (indices.map fun index => (programTokens tokens)[index]) := by
  obtain ⟨kept, hFits, hKept⟩ :=
    List.sublistForall₂_iff.1 (keepsAll_stmts tokens).traced
  obtain ⟨indices, rfl, hGrow⟩ := List.sublist_eq_map_getElem hKept
  exact ⟨indices, hGrow, hFits⟩

end ImpFront
