import ImpFront.Proofs.Grammar.Placement
import ImpFront.Proofs.Number.Reals
import ImpFront.Proofs.Tree.Roles

/-!
# What trees are printed with

A printed tree consists of names, constants and operators, and of blanks,
commas and parentheses between them. What was read from a source has names
that are words, operators that consist of signs, and constants that are
numbers or truth values; strings could be anything, so trees with strings are
left out here, and so are infinite reals, which are printed as a word.

None of these has a separator in it, so wherever one of them is followed by a
separator it ends there. Its text then tells the token or the value: a token by
the way in which it would be scanned, a constant by its digits and by whether
there is a point or an exponent.

## Main results

* `run_unique` — how a text is taken apart.
* `Token.IsPlain.unplaced_eq` — a lexeme tells the token.
* `Expr.IsLeaf.alike` — a text tells the constant or the name.
-/

namespace ImpFront

open Token (Kind)
open Source (HasForm NotNext IsWord takeWhile_append_of_notNext
  dropWhile_append_of_notNext)
open Source.Piece (beginsWord continuesWord)

/-! ## Trees that cannot be told apart -/

/-- The same value, or reals that are printed alike. -/
def Literal.Alike : Literal → Literal → Prop
  | real x, real y => (real x).text = (real y).text
  | value, value' => value = value'

/-- The same tree but for the positions of tokens, and for reals that are
printed alike. -/
def Expr.Alike : Expr → Expr → Prop
  | binary left operator right, binary left' operator' right' =>
    left.Alike left' ∧ operator.unplaced = operator'.unplaced ∧
      right.Alike right'
  | unary operator operand, unary operator' operand' =>
    operator.unplaced = operator'.unplaced ∧ operand.Alike operand'
  | literal value, literal value' => value.Alike value'
  | var name, var name' => name.unplaced = name'.unplaced
  | group inner, group inner' => inner.Alike inner'
  | _, _ => False

namespace Stmt

mutual

/-- The same tree but for the positions of tokens, and for reals that are
printed alike. -/
def Alike : Stmt → Stmt → Prop
  | declare type name, declare type' name' =>
    type.unplaced = type'.unplaced ∧ name.unplaced = name'.unplaced
  | expression value, expression value' => value.Alike value'
  | assign name operator value, assign name' operator' value' =>
    name.unplaced = name'.unplaced ∧ operator.unplaced = operator'.unplaced ∧
      value.Alike value'
  | read name, read name' => name.unplaced = name'.unplaced
  | write value, write value' => value.Alike value'
  | block members, block members' => AllAlike members members'
  | ifThen condition thenPart, ifThen condition' thenPart' =>
    condition.Alike condition' ∧ thenPart.Alike thenPart'
  | ifThenElse condition thenPart elsePart,
    ifThenElse condition' thenPart' elsePart' =>
    condition.Alike condition' ∧ thenPart.Alike thenPart' ∧
      elsePart.Alike elsePart'
  | whileLoop condition body, whileLoop condition' body' =>
    condition.Alike condition' ∧ body.Alike body'
  | _, _ => False

/-- One by one the same. -/
def AllAlike : List Stmt → List Stmt → Prop
  | [], [] => True
  | stmt :: stmts, stmt' :: stmts' => stmt.Alike stmt' ∧ AllAlike stmts stmts'
  | _, _ => False

end

end Stmt

/-! ## Characters -/

/-- Is the character none of those that stand between the parts of a tree? -/
def isInner (c : Char) : Bool := !([' ', '(', ')', ','].contains c)

theorem contains_eq_false_of_class {inClass : Char → Bool} {c : Char}
    {others : List Char} (h : inClass c = true)
    (hNone : others.any inClass = false) : others.contains c = false := by
  rw [← Bool.not_eq_true, List.contains_iff_mem]
  intro hMem
  rw [List.any_eq_true.2 ⟨c, hMem, h⟩] at hNone
  cases hNone

theorem isInner_of_class {inClass : Char → Bool} {c : Char}
    (h : inClass c = true)
    (hNone : [' ', '(', ')', ','].any inClass = false) :
    isInner c = true := by
  rw [isInner, contains_eq_false_of_class h hNone]
  rfl

theorem isInner_of_continuesWord {c : Char} (h : continuesWord c = true) :
    isInner c = true :=
  isInner_of_class h (by decide +kernel)

theorem isInner_of_isDigit {c : Char} (h : c.isDigit = true) :
    isInner c = true :=
  isInner_of_class h (by decide +kernel)

/-- Where runs of a class end in front of other characters, there is one way
to take a text apart. -/
theorem run_unique {inClass : Char → Bool} {run run' rest rest' : List Char}
    (hRun : ∀ c ∈ run, inClass c = true) (hRest : NotNext inClass rest)
    (hRun' : ∀ c ∈ run', inClass c = true) (hRest' : NotNext inClass rest')
    (h : run ++ rest = run' ++ rest') : run = run' ∧ rest = rest' := by
  have hTake := congrArg (List.takeWhile inClass) h
  have hDrop := congrArg (List.dropWhile inClass) h
  rw [takeWhile_append_of_notNext hRun hRest,
    takeWhile_append_of_notNext hRun' hRest'] at hTake
  rw [dropWhile_append_of_notNext hRun hRest,
    dropWhile_append_of_notNext hRun' hRest'] at hDrop
  exact ⟨hTake, hDrop⟩

/-! ## Tokens -/

/-- The lexeme of a token that is no string tells its kind. -/
theorem Source.kind_eq_of_hasForm {kind kind' : Kind} {lexeme : String}
    (hForm : HasForm kind lexeme) (hForm' : HasForm kind' lexeme)
    (hString : kind ≠ .string) (hString' : kind' ≠ .string) : kind = kind' := by
  have hLeads {k : Kind} (h : HasForm k lexeme) (hNot : k ≠ .string) :
      (Piece.token k lexeme.toList).Leads [] := by
    refine Piece.leads_token hNot ?_ nofun (fun _ _ => nofun)
    rwa [String.ofList_toList]
  obtain ⟨c, text, hText, hFirst⟩ := hLeads hForm hString
  obtain ⟨c', text', hText', hFirst'⟩ := hLeads hForm' hString'
  have hSame : c :: text = c' :: text' := hText.symm.trans hText'
  obtain ⟨rfl, rfl⟩ := List.cons.inj hSame
  have hPiece := hFirst.symm.trans hFirst'
  cases hPiece
  rfl

/-- The token has the form of its kind, and is no string. -/
def Token.IsPlain (token : Token) : Prop :=
  HasForm token.kind token.lexeme ∧ token.kind ≠ .string

theorem Token.IsPlain.unplaced_eq {token token' : Token} (h : token.IsPlain)
    (h' : token'.IsPlain) (hText : token.lexeme.toList = token'.lexeme.toList) :
    token.unplaced = token'.unplaced := by
  obtain ⟨kind, lexeme, position⟩ := token
  obtain ⟨kind', lexeme', position'⟩ := token'
  obtain rfl : lexeme = lexeme' := String.toList_inj.1 hText
  obtain rfl : kind = kind' :=
    Source.kind_eq_of_hasForm h.1 h'.1 h.2 h'.2
  rfl

/-! ## Legible trees -/

/-- Neither a string, which may contain anything, nor an infinite real. -/
def Literal.IsLegible : Literal → Prop
  | string _ => False
  | real (.infinite _) => False
  | _ => True

/-- The roles in trees that are read from a source and have no strings and no
infinite reals in them. -/
def Source.legibleRoles : Roles :=
  roles.and (.uniform (fun _ => True) Literal.IsLegible)

namespace Source

variable {token : Token}

/-- An operator has the form of its kind. -/
def IsOperatorToken (token : Token) : Prop :=
  isOperator token.kind = true ∧ HasForm token.kind token.lexeme

theorem isOperatorToken_of_assignment (h : legibleRoles.assignment token) :
    IsOperatorToken token := by
  obtain ⟨⟨hKind, hForm⟩, -⟩ := h
  exact ⟨by rw [isOperator, hKind]; rfl, hForm⟩

theorem isOperatorToken_of_unary (h : legibleRoles.unary token) :
    IsOperatorToken token := by
  obtain ⟨⟨hKind, hForm⟩, -⟩ := h
  refine ⟨?_, hForm⟩
  rcases hKind with hKind | hKind <;> rw [hKind] <;> rfl

theorem isOperatorToken_of_binary (h : legibleRoles.binary token) :
    IsOperatorToken token := by
  obtain ⟨⟨hKind, hForm⟩, -⟩ := h
  exact ⟨by rw [isOperator, hKind, Bool.or_true], hForm⟩

namespace IsOperatorToken

theorem isPlain (h : IsOperatorToken token) : token.IsPlain := by
  refine ⟨h.2, ?_⟩
  intro hKind
  have hNot := h.1
  rw [hKind] at hNot
  cases hNot

theorem isSignChar (h : IsOperatorToken token) :
    ∀ c ∈ token.lexeme.toList, isSignChar c = true :=
  (isSignChar_of_hasForm h.1 h.2).2

/-- An operator begins with a sign. -/
theorem exists_sign (h : IsOperatorToken token) :
    ∃ c text, token.lexeme.toList = c :: text ∧ Source.isSignChar c = true := by
  obtain ⟨hNonempty, hSigns⟩ := isSignChar_of_hasForm h.1 h.2
  obtain ⟨c, text, hText⟩ := List.exists_cons_of_ne_nil hNonempty
  refine ⟨c, text, hText, hSigns c ?_⟩
  rw [hText]
  exact List.mem_cons_self

end IsOperatorToken

/-- A name is a word, and not a reserved one. -/
theorem isWord_of_name (h : legibleRoles.name token) :
    IsWord token.lexeme.toList ∧ Kind.keyword? token.lexeme = none := by
  obtain ⟨⟨hKind, hForm⟩, -⟩ := h
  rw [hKind] at hForm
  exact hForm

theorem isInner_of_isWord {text : List Char} (h : IsWord text) :
    ∀ c ∈ text, isInner c = true := by
  obtain ⟨first, rest, rfl, hFirst, hRest⟩ := h
  refine List.forall_mem_cons.2 ⟨?_, ?_⟩
  · exact isInner_of_class hFirst (by decide +kernel)
  · exact fun c hMem => isInner_of_continuesWord (hRest c hMem)

/-- The token has the form of its kind and is a word, which may be a reserved
one. -/
def IsWordToken (token : Token) : Prop :=
  token.IsPlain ∧ ∀ c ∈ token.lexeme.toList, isInner c = true

theorem isWordToken_of_name (h : legibleRoles.name token) :
    IsWordToken token := by
  refine ⟨⟨h.1.2, ?_⟩, isInner_of_isWord (isWord_of_name h).1⟩
  rw [h.1.1]
  decide

theorem isWordToken_of_type (h : legibleRoles.type token) :
    IsWordToken token := by
  obtain ⟨⟨hKind, hForm⟩, -⟩ := h
  rcases hKind with hKind | hKind
  all_goals
    refine ⟨⟨hForm, by rw [hKind]; decide⟩, ?_⟩
    rw [hKind] at hForm
    rw [← Option.some.inj hForm]
    exact List.all_eq_true.1 (by decide)

end Source

open Source (legibleRoles isSignChar)

/-! ## Leaves -/

/-- The leaves of legible trees. -/
inductive Expr.IsLeaf : Expr → Prop
  | integer (n : Nat) : IsLeaf (.literal (.integer n))
  | real (m : Number.Magnitude) : IsLeaf (.literal (.real (.finite false m)))
  | boolean (b : Bool) : IsLeaf (.literal (.boolean b))
  | var {name : Token} (hName : legibleRoles.name name) : IsLeaf (.var name)

namespace Expr

theorem isLeaf_literal {value : Literal} (h : legibleRoles.value value) :
    IsLeaf (.literal value) := by
  obtain ⟨⟨token, hForm, hValue⟩, hLegible⟩ := h
  cases hValue with
  | @integer n hKind hRead =>
      rw [hKind] at hForm
      have hEq := Number.integer?_eq hForm.1 hForm.2
      rw [String.ofList_toList, hRead] at hEq
      split at hEq
      · rw [Option.some.inj hEq]
        exact .integer _
      · cases hEq
  | @real x hKind hRead =>
      rw [hKind] at hForm
      have hUnsigned := Number.real?_of_isReal hForm hRead
      cases x with
      | notNumber => exact hUnsigned.elim
      | infinite negative => exact hLegible.elim
      | finite negative m =>
          obtain rfl : negative = false := hUnsigned
          exact .real m
  | string hKind => exact hLegible.elim
  | boolean hKind => exact .boolean _

/-- The text of an expression, as characters. -/
def chars (expr : Expr) : List Char := expr.text.toList

variable {expr : Expr}

theorem chars_integer (n : Nat) :
    (literal (.integer n)).chars = Nat.toDigits 10 n := by
  rw [chars, text_literal, Literal.text_integer, String.toList_ofList]

theorem isRealText_chars (m : Number.Magnitude) :
    Number.IsRealText (literal (.real (.finite false m))).chars := by
  rw [chars, text_literal]
  exact Number.isRealText_write _ m

theorem chars_var (name : Token) : (var name).chars = name.lexeme.toList := by
  rw [chars, text_var]

/-- What a leaf is, in the kinds of constants and names. -/
def leafKind : Expr → Kind
  | literal (.integer _) => .integer
  | literal (.real _) => .real
  | literal (.boolean _) => .boolean
  | _ => .identifier

/-- The same, told from the text. -/
def kindOfText (text : List Char) : Kind :=
  if text.all Char.isDigit then .integer
  else if text.head?.any Char.isDigit then .real
  else Source.Piece.wordKind text

namespace IsLeaf

/-- A leaf is made of inner characters. -/
theorem isInner_chars (h : expr.IsLeaf) :
    ∀ c ∈ expr.chars, isInner c = true := by
  cases h with
  | integer n =>
      rw [chars_integer]
      exact fun c hMem => isInner_of_isDigit (Number.isDigits_toDigits n c hMem)
  | real m =>
      intro c hMem
      rcases (isRealText_chars m).consists c hMem with hDigit | rfl | rfl | rfl
      · exact isInner_of_isDigit hDigit
      all_goals rfl
  | boolean b => cases b <;> exact List.all_eq_true.1 (by decide +kernel)
  | var hName =>
      rw [chars_var]
      exact Source.isInner_of_isWord (Source.isWord_of_name hName).1

/-- A leaf begins with a digit or like a word. -/
theorem exists_first (h : expr.IsLeaf) :
    ∃ c text, expr.chars = c :: text ∧
      (c.isDigit = true ∨ beginsWord c = true) := by
  cases h with
  | integer n =>
      have hNonempty : Nat.toDigits 10 n ≠ [] := Nat.toDigits_ne_nil
      obtain ⟨c, text, hText⟩ := List.exists_cons_of_ne_nil hNonempty
      have hDigit := Number.isDigits_toDigits n c
        (by rw [hText]; exact List.mem_cons_self)
      exact ⟨c, text, by rw [chars_integer, hText], .inl hDigit⟩
  | real m =>
      obtain ⟨c, text, hText, hDigit⟩ := (isRealText_chars m).begins
      exact ⟨c, text, hText, .inl hDigit⟩
  | boolean b => cases b <;> exact ⟨_, _, rfl, .inr (by decide +kernel)⟩
  | var hName =>
      obtain ⟨c, text, hText, hFirst, -⟩ := (Source.isWord_of_name hName).1
      exact ⟨c, text, by rw [chars_var, hText], .inr hFirst⟩

theorem kindOfText_chars (h : expr.IsLeaf) :
    kindOfText expr.chars = expr.leafKind := by
  cases h with
  | integer n =>
      have hDigits : (Nat.toDigits 10 n).all Char.isDigit = true :=
        List.all_eq_true.2 (Number.isDigits_toDigits n)
      rw [chars_integer, kindOfText, if_pos hDigits]
      rfl
  | real m =>
      obtain ⟨⟨c, text, hText, hDigit⟩, -, hShows⟩ := isRealText_chars m
      have hNotAll : ¬(literal (.real (.finite false m))).chars.all
          Char.isDigit = true := by
        rw [List.all_eq_true]
        intro hDigits
        rcases hShows with hPoint | hExponent
        · exact absurd (hDigits '.' hPoint) (by decide)
        · exact absurd (hDigits 'e' hExponent) (by decide)
      have hFirst : (literal (.real (.finite false m))).chars.head?.any
          Char.isDigit = true := by
        rw [hText]
        exact hDigit
      rw [kindOfText, if_neg hNotAll, if_pos hFirst]
      rfl
  | boolean b => cases b <;> decide +kernel
  | @var name hName =>
      obtain ⟨⟨c, text, hText, hFirst, -⟩, hKeyword⟩ :=
        Source.isWord_of_name hName
      have hLetter : c.isDigit = false := by
        rw [← Bool.not_eq_true]
        intro hDigit
        rw [Source.beginsWord_eq_false_of_isDigit hDigit] at hFirst
        cases hFirst
      rw [kindOfText, chars_var, Source.Piece.wordKind, String.ofList_toList,
        hKeyword, hText]
      simp [hLetter, leafKind]

/-- Leaves with the same text cannot be told apart. -/
theorem alike {other : Expr} (h : expr.IsLeaf) (h' : other.IsLeaf)
    (hText : expr.chars = other.chars) : expr.Alike other := by
  have hKind : expr.leafKind = other.leafKind := by
    rw [← h.kindOfText_chars, ← h'.kindOfText_chars, hText]
  cases h with
  | integer n =>
      cases h' with
      | integer n' =>
          rw [chars_integer, chars_integer] at hText
          have hValue := congrArg Number.placeValue hText
          rw [Number.placeValue_toDigits, Number.placeValue_toDigits] at hValue
          rw [hValue]
          exact rfl
      | _ => cases hKind
  | real m =>
      cases h' with
      | real m' => exact String.toList_inj.1 hText
      | _ => cases hKind
  | boolean b =>
      cases h' with
      | boolean b' =>
          cases b <;> cases b' <;>
            first | exact rfl | exact absurd hText (by decide +kernel)
      | _ => cases hKind
  | var hName =>
      cases h' with
      | var hName' =>
          rw [chars_var, chars_var] at hText
          exact (Source.isWordToken_of_name hName).1.unplaced_eq
            (Source.isWordToken_of_name hName').1 hText
      | _ => cases hKind

end IsLeaf

end Expr

end ImpFront
