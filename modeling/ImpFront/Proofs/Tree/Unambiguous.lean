import ImpFront.Proofs.Tree.Words

/-!
# The text of a tree tells the tree

Statements are printed without quotes and with blanks, commas and parentheses
in between, and variables may have the names of forms: `group`, `If`, `Block`.
Still the text of what was read from a source tells what it was, up to the
positions of tokens and to what a text cannot show, reals that are printed
alike.

A text is taken apart from the left. No operand begins with a sign, so
operators are told from operands, and `(group x)` from an operation on a
variable of that name. With this, the text of an expression in front of a
separator ends where it has to, and so does that of a statement in front of
anything. Both are inductions on the tree that was printed, for all that may
follow its text.

## Main results

* `Expr.alike_of_chars` — expressions, with something behind them.
* `Stmt.alike_of_chars` — statements, with something behind them.
* `Stmt.text_eq_iff_alike` — all statements in what was read from sources.
-/

namespace ImpFront

open Source (scan cut_cons cut_nil NotNext notNext_cons legibleRoles
  isSignChar)

namespace Expr

variable {expr : Expr}

/-! ## Expressions -/

variable {rest : List Char}

theorem chars_binary_append (left : Expr) (operator : Token) (right : Expr)
    (rest : List Char) :
    (binary left operator right).chars ++ rest =
      '(' :: (left.chars ++ ' ' :: (operator.lexeme.toList ++
        ' ' :: (right.chars ++ ')' :: rest))) := by
  simp [chars, text_binary, toString]

theorem chars_unary_append (operator : Token) (operand : Expr)
    (rest : List Char) :
    (unary operator operand).chars ++ rest =
      '(' :: (operator.lexeme.toList ++ (operand.chars ++ ')' :: rest)) := by
  simp [chars, text_unary, toString]

/-- The word that groups begin with. -/
def groupWord : List Char := ['g', 'r', 'o', 'u', 'p']

theorem chars_group_append (inner : Expr) (rest : List Char) :
    (group inner).chars ++ rest =
      '(' :: (groupWord ++ ' ' :: (inner.chars ++ ')' :: rest)) := by
  simp [chars, text_group, toString, groupWord]

theorem isLeaf_or_paren (h : expr.Fills legibleRoles) :
    expr.IsLeaf ∨ ∃ text, expr.chars = '(' :: text := by
  have hParen (e : Expr) {text : List Char} (hText : e.chars ++ [] = '(' :: text) :
      ∃ text, e.chars = '(' :: text := by
    rw [List.append_nil] at hText
    exact ⟨text, hText⟩
  cases expr with
  | literal value => exact .inl (isLeaf_literal h)
  | var name => exact .inl (.var h)
  | binary left operator right =>
      exact .inr (hParen _ (chars_binary_append left operator right []))
  | unary operator operand =>
      exact .inr (hParen _ (chars_unary_append operator operand []))
  | group inner => exact .inr (hParen _ (chars_group_append inner []))

/-- No operand begins with a sign. -/
theorem notNext_sign (h : expr.Fills legibleRoles) (rest : List Char) :
    NotNext isSignChar (expr.chars ++ rest) := by
  have hFirst : ∃ c text, expr.chars = c :: text ∧ isSignChar c = false := by
    rcases isLeaf_or_paren h with hLeaf | ⟨text, hText⟩
    · obtain ⟨c, text, hText, hFirst⟩ := hLeaf.exists_first
      refine ⟨c, text, hText, ?_⟩
      rcases hFirst with hDigit | hWord
      · exact contains_eq_false_of_class hDigit (by decide +kernel)
      · exact contains_eq_false_of_class hWord (by decide +kernel)
    · exact ⟨'(', text, hText, rfl⟩
  obtain ⟨c, text, hText, hSign⟩ := hFirst
  rw [hText]
  exact notNext_cons hSign _

/-- A leaf in front of a separator is the whole of an expression. -/
theorem IsLeaf.alike_of_chars {other : Expr} {rest' : List Char}
    (h : expr.IsLeaf) (h' : other.Fills legibleRoles)
    (hRest : NotNext isInner rest) (hRest' : NotNext isInner rest')
    (hText : expr.chars ++ rest = other.chars ++ rest') :
    expr.Alike other ∧ rest = rest' := by
  rcases isLeaf_or_paren h' with hLeaf | ⟨text, hParen⟩
  · obtain ⟨hSame, hBehind⟩ := run_unique h.isInner_chars hRest
      hLeaf.isInner_chars hRest' hText
    exact ⟨h.alike hLeaf hSame, hBehind⟩
  · obtain ⟨c, more, hChars, -⟩ := h.exists_first
    have hInner := h.isInner_chars c (by rw [hChars]; exact List.mem_cons_self)
    rw [hChars, hParen] at hText
    obtain ⟨rfl, -⟩ := List.cons.inj hText
    cases hInner

/-- Operators in front of anything but a sign. -/
theorem operator_unique {operator operator' : Token} {rest' : List Char}
    (h : Source.IsOperatorToken operator) (h' : Source.IsOperatorToken operator')
    (hRest : NotNext isSignChar rest) (hRest' : NotNext isSignChar rest')
    (hText : operator.lexeme.toList ++ rest =
      operator'.lexeme.toList ++ rest') :
    operator.unplaced = operator'.unplaced ∧ rest = rest' := by
  obtain ⟨hSame, hBehind⟩ :=
    run_unique h.isSignChar hRest h'.isSignChar hRest' hText
  exact ⟨h.isPlain.unplaced_eq h'.isPlain hSame, hBehind⟩

/-! ### What is behind a parenthesis -/

section Paren

variable {left operand right inner : Expr} {operator operator' : Token}

/-- No operand begins like an operator. -/
theorem operator_append_ne (h : Source.IsOperatorToken operator)
    {text : List Char} (hText : NotNext isSignChar text) (rest : List Char) :
    operator.lexeme.toList ++ rest ≠ text := by
  obtain ⟨c, more, hSign, hChar⟩ := h.exists_sign
  rintro rfl
  rw [hSign] at hText
  rw [hText c rfl] at hChar
  cases hChar

theorem unary_ne_group (h : (unary operator operand).Fills legibleRoles)
    (rest rest' : List Char) :
    (unary operator operand).chars ++ rest ≠ (group inner).chars ++ rest' := by
  rw [chars_unary_append, chars_group_append]
  intro hText
  have hWord (text : List Char) : NotNext isSignChar (groupWord ++ text) :=
    notNext_cons rfl _
  exact operator_append_ne (Source.isOperatorToken_of_unary h.1) (hWord _) _
    (List.cons.inj hText).2

theorem unary_ne_binary (h : (unary operator operand).Fills legibleRoles)
    (h' : (binary left operator' right).Fills legibleRoles)
    (rest rest' : List Char) :
    (unary operator operand).chars ++ rest ≠
      (binary left operator' right).chars ++ rest' := by
  rw [chars_unary_append, chars_binary_append]
  intro hText
  exact operator_append_ne (Source.isOperatorToken_of_unary h.1)
    (notNext_sign h'.1 _) _ (List.cons.inj hText).2

/-- A group is no operation on a variable that is called like one: behind the
name an operator would have to follow, and an operand does. -/
theorem group_ne_binary (h : (group inner).Fills legibleRoles)
    (h' : (binary left operator right).Fills legibleRoles)
    (rest rest' : List Char) :
    (group inner).chars ++ rest ≠
      (binary left operator right).chars ++ rest' := by
  rw [chars_group_append, chars_binary_append]
  intro hText
  have hInner : inner.Fills legibleRoles := h
  have hForm : Source.HasForm .identifier "group" := by
    rw [Source.HasForm, String.toList_ofList]
    exact ⟨⟨'g', ['r', 'o', 'u', 'p'], rfl, by decide +kernel,
      List.all_eq_true.1 (by decide +kernel)⟩, by decide +kernel⟩
  have hWord : IsLeaf (.var ⟨.identifier, "group", .start⟩) :=
    .var ⟨⟨rfl, hForm⟩, trivial⟩
  have hChars : (var ⟨.identifier, "group", .start⟩).chars = groupWord := by
    rw [chars_var]
    rfl
  have hBlank (text : List Char) : NotNext isInner (' ' :: text) :=
    notNext_cons rfl text
  rw [← hChars] at hText
  have hBehind := (hWord.alike_of_chars h'.1 (hBlank _) (hBlank _)
    (List.cons.inj hText).2).2
  exact operator_append_ne (Source.isOperatorToken_of_binary h'.2.1)
    (notNext_sign hInner _) _ (List.cons.inj hBehind).2.symm

end Paren

/-! ### The whole of an expression -/

/-- The text of an expression in front of a separator tells the expression and
where its text ends. -/
theorem alike_of_chars {other : Expr} {rest' : List Char}
    (h : expr.Fills legibleRoles) (h' : other.Fills legibleRoles)
    (hRest : NotNext isInner rest) (hRest' : NotNext isInner rest')
    (hText : expr.chars ++ rest = other.chars ++ rest') :
    expr.Alike other ∧ rest = rest' := by
  have hParen (text : List Char) : NotNext isInner (')' :: text) :=
    notNext_cons rfl text
  have hBlank (text : List Char) : NotNext isInner (' ' :: text) :=
    notNext_cons rfl text
  have hSign (text : List Char) : NotNext isSignChar (' ' :: text) :=
    notNext_cons rfl text
  -- Whatever is in front of one of the texts, the other one is taken for the
  -- same, since otherwise they would differ at once.
  induction expr generalizing other rest rest' with
  | literal value =>
      exact (isLeaf_literal h).alike_of_chars h' hRest hRest' hText
  | var name => exact (IsLeaf.var h).alike_of_chars h' hRest hRest' hText
  | group inner ih =>
      cases other with
      | literal value =>
          exact ((isLeaf_literal h').alike_of_chars h hRest' hRest hText.symm).1.elim
      | var name =>
          exact ((IsLeaf.var h').alike_of_chars h hRest' hRest hText.symm).1.elim
      | unary => exact absurd hText.symm (unary_ne_group h' _ _)
      | binary => exact absurd hText (group_ne_binary h h' _ _)
      | group inner' =>
          have hInner : inner.Fills legibleRoles := h
          have hInner' : inner'.Fills legibleRoles := h'
          rw [chars_group_append, chars_group_append] at hText
          have hBehind := List.append_cancel_left (List.cons.inj hText).2
          obtain ⟨hSame, hRests⟩ :=
            ih hInner hInner' (hParen _) (hParen _) (List.cons.inj hBehind).2
          exact ⟨hSame, (List.cons.inj hRests).2⟩
  | unary operator operand ih =>
      cases other with
      | literal value =>
          exact ((isLeaf_literal h').alike_of_chars h hRest' hRest hText.symm).1.elim
      | var name =>
          exact ((IsLeaf.var h').alike_of_chars h hRest' hRest hText.symm).1.elim
      | group => exact absurd hText (unary_ne_group h _ _)
      | binary => exact absurd hText (unary_ne_binary h h' _ _)
      | unary operator' operand' =>
          rw [chars_unary_append, chars_unary_append] at hText
          obtain ⟨hOperators, hBehind⟩ := operator_unique
            (Source.isOperatorToken_of_unary h.1)
            (Source.isOperatorToken_of_unary h'.1) (notNext_sign h.2 _)
            (notNext_sign h'.2 _) (List.cons.inj hText).2
          obtain ⟨hOperands, hRests⟩ :=
            ih h.2 h'.2 (hParen _) (hParen _) hBehind
          exact ⟨⟨hOperators, hOperands⟩, (List.cons.inj hRests).2⟩
  | binary left operator right ihLeft ihRight =>
      cases other with
      | literal value =>
          exact ((isLeaf_literal h').alike_of_chars h hRest' hRest hText.symm).1.elim
      | var name =>
          exact ((IsLeaf.var h').alike_of_chars h hRest' hRest hText.symm).1.elim
      | group => exact absurd hText.symm (group_ne_binary h' h _ _)
      | unary => exact absurd hText.symm (unary_ne_binary h' h _ _)
      | binary left' operator' right' =>
          rw [chars_binary_append, chars_binary_append] at hText
          obtain ⟨hLefts, hBehind⟩ := ihLeft h.1 h'.1 (hBlank _) (hBlank _)
            (List.cons.inj hText).2
          obtain ⟨hOperators, hBehind⟩ := operator_unique
            (Source.isOperatorToken_of_binary h.2.1)
            (Source.isOperatorToken_of_binary h'.2.1) (hSign _) (hSign _)
            (List.cons.inj hBehind).2
          obtain ⟨hRights, hRests⟩ := ihRight h.2.2 h'.2.2 (hParen _)
            (hParen _) (List.cons.inj hBehind).2
          exact ⟨⟨hLefts, hOperators, hRights⟩, (List.cons.inj hRests).2⟩

end Expr

/-! ## Statements -/

namespace Stmt

/-- The text of a statement, as characters. -/
def chars (stmt : Stmt) : List Char := stmt.text.toList

/-- The forms of statements, by the names that their texts begin with. -/
inductive Form
  | declare | expression | assign | read | write | block | branch | loop
deriving DecidableEq

/-- The name of a form. -/
def Form.name : Form → List Char
  | declare => ['V', 'a', 'r', 'D', 'e', 'c', 'l']
  | expression => ['E', 'x', 'p', 'r', 'S', 't', 'm', 't']
  | assign => ['A', 's', 's', 'i', 'g', 'n']
  | read => ['R', 'e', 'a', 'd']
  | write => ['W', 'r', 'i', 't', 'e']
  | block => ['B', 'l', 'o', 'c', 'k']
  | branch => ['I', 'f']
  | loop => ['W', 'h', 'i', 'l', 'e']

theorem Form.name_injective {form form' : Form} (h : form.name = form'.name) :
    form = form' := by
  revert h
  cases form <;> cases form' <;> decide +kernel

theorem Form.isInner_name (form : Form) :
    ∀ c ∈ form.name, isInner c = true := by
  cases form <;> exact List.all_eq_true.1 (by decide +kernel)

/-- The form of a statement. -/
def form : Stmt → Form
  | .declare .. => .declare
  | .expression .. => .expression
  | .assign .. => .assign
  | .read .. => .read
  | .write .. => .write
  | .block .. => .block
  | .ifThen .. | .ifThenElse .. => .branch
  | .whileLoop .. => .loop

/-- The texts of statements behind others, each behind a comma. -/
def moreChars : List Stmt → List Char
  | [] => []
  | stmt :: stmts => ',' :: ' ' :: (stmt.chars ++ moreChars stmts)

/-- The texts of the members of a block. -/
def membersChars : List Stmt → List Char
  | [] => []
  | stmt :: stmts => stmt.chars ++ moreChars stmts

/-- What stands in the text of a statement behind its name and a parenthesis,
with something behind it. -/
def bodyOnto (rest : List Char) : Stmt → List Char
  | declare type name =>
    type.lexeme.toList ++ ' ' :: (name.lexeme.toList ++ ')' :: rest)
  | expression value => value.chars ++ ')' :: rest
  | assign name operator value =>
    name.lexeme.toList ++ ' ' :: (operator.lexeme.toList ++
      ' ' :: (value.chars ++ ')' :: rest))
  | read name => name.lexeme.toList ++ ')' :: rest
  | write value => value.chars ++ ')' :: rest
  | block members => '[' :: (membersChars members ++ ']' :: ')' :: rest)
  | ifThen condition thenPart =>
    condition.chars ++ ',' :: ' ' :: (thenPart.chars ++ ')' :: rest)
  | ifThenElse condition thenPart elsePart =>
    condition.chars ++ ',' :: ' ' :: (thenPart.chars ++
      ',' :: ' ' :: (elsePart.chars ++ ')' :: rest))
  | whileLoop condition body =>
    condition.chars ++ ',' :: ' ' :: (body.chars ++ ')' :: rest)

theorem toList_intercalate_texts (stmts : List Stmt) :
    (String.intercalate ", " (texts stmts)).toList = membersChars stmts := by
  have hMore (first : Stmt) (stmts : List Stmt) :
      (String.intercalate ", " ((first :: stmts).map text)).toList =
        first.chars ++ moreChars stmts := by
    induction stmts generalizing first with
    | nil => simp [String.intercalate_singleton, moreChars, chars]
    | cons second stmts ih =>
        rw [List.map_cons, List.map_cons, String.intercalate_cons_cons,
          ← List.map_cons, String.toList_append, String.toList_append, ih]
        simp [moreChars, chars]
  rw [texts_eq_map]
  cases stmts with
  | nil => rfl
  | cons first stmts => exact hMore first stmts

/-- A text is a name, a parenthesis and what stands behind it. -/
theorem chars_append (stmt : Stmt) (rest : List Char) :
    stmt.chars ++ rest = stmt.form.name ++ '(' :: stmt.bodyOnto rest := by
  cases stmt with
  | declare type name =>
      show ("VarDecl(" ++ type.lexeme ++ " " ++ name.lexeme ++ ")").toList ++
        rest = _
      simp [form, Form.name, bodyOnto]
  | expression value =>
      show ("ExprStmt(" ++ value.text ++ ")").toList ++ rest = _
      simp [form, Form.name, bodyOnto, Expr.chars]
  | assign name operator value =>
      show ("Assign(" ++ name.lexeme ++ " " ++ operator.lexeme ++ " " ++
        value.text ++ ")").toList ++ rest = _
      simp [form, Form.name, bodyOnto, Expr.chars]
  | read name =>
      show ("Read(" ++ name.lexeme ++ ")").toList ++ rest = _
      simp [form, Form.name, bodyOnto]
  | write value =>
      show ("Write(" ++ value.text ++ ")").toList ++ rest = _
      simp [form, Form.name, bodyOnto, Expr.chars]
  | block members =>
      show ("Block([" ++ String.intercalate ", " (texts members) ++
        "])").toList ++ rest = _
      rw [String.toList_append, String.toList_append, toList_intercalate_texts]
      simp [form, Form.name, bodyOnto]
  | ifThen condition thenPart =>
      show ("If(" ++ condition.text ++ ", " ++ thenPart.text ++ ")").toList ++
        rest = _
      simp [form, Form.name, bodyOnto, Expr.chars, chars]
  | ifThenElse condition thenPart elsePart =>
      show ("If(" ++ condition.text ++ ", " ++ thenPart.text ++ ", " ++
        elsePart.text ++ ")").toList ++ rest = _
      simp [form, Form.name, bodyOnto, Expr.chars, chars]
  | whileLoop condition body =>
      show ("While(" ++ condition.text ++ ", " ++ body.text ++ ")").toList ++
        rest = _
      simp [form, Form.name, bodyOnto, Expr.chars, chars]

/-- A text that tells a statement tells its form. -/
theorem form_and_body {stmt stmt' : Stmt} {rest rest' : List Char}
    (h : stmt.chars ++ rest = stmt'.chars ++ rest') :
    stmt.form = stmt'.form ∧ stmt.bodyOnto rest = stmt'.bodyOnto rest' := by
  have hParen (text : List Char) : NotNext isInner ('(' :: text) :=
    notNext_cons rfl text
  rw [chars_append, chars_append] at h
  obtain ⟨hName, hBody⟩ := run_unique stmt.form.isInner_name (hParen _)
    stmt'.form.isInner_name (hParen _) h
  exact ⟨Form.name_injective hName, (List.cons.inj hBody).2⟩

/-- A word in front of a separator. -/
theorem word_unique {token token' : Token} {rest rest' : List Char}
    (h : Source.IsWordToken token) (h' : Source.IsWordToken token')
    (hRest : NotNext isInner rest) (hRest' : NotNext isInner rest')
    (hText : token.lexeme.toList ++ rest = token'.lexeme.toList ++ rest') :
    token.unplaced = token'.unplaced ∧ rest = rest' := by
  obtain ⟨hSame, hBehind⟩ := run_unique h.2 hRest h'.2 hRest' hText
  exact ⟨h.1.unplaced_eq h'.1 hSame, hBehind⟩

section

variable {rest rest' : List Char}

/-- No statement begins with what closes a block. -/
theorem chars_append_ne (stmt : Stmt) (rest rest' : List Char) :
    ']' :: rest ≠ stmt.chars ++ rest' := by
  have hName : ∃ c name, stmt.form.name = c :: name ∧ c ≠ ']' := by
    cases stmt.form <;> exact ⟨_, _, rfl, by decide⟩
  obtain ⟨c, name, hText, hNot⟩ := hName
  rw [chars_append, hText]
  intro h
  exact hNot (List.cons.inj h).1.symm

/-- An expression and a parenthesis that closes the statement. -/
theorem closed_unique {value value' : Expr} (h : value.Fills legibleRoles)
    (h' : value'.Fills legibleRoles)
    (hText : value.chars ++ ')' :: rest = value'.chars ++ ')' :: rest') :
    value.Alike value' ∧ rest = rest' := by
  obtain ⟨hAlike, hBehind⟩ := Expr.alike_of_chars h h'
    (notNext_cons rfl _) (notNext_cons rfl _) hText
  exact ⟨hAlike, (List.cons.inj hBehind).2⟩

/-- A condition, and what stands behind a comma. -/
theorem condition_unique {condition condition' : Expr}
    (h : condition.Fills legibleRoles) (h' : condition'.Fills legibleRoles)
    (hText : condition.chars ++ ',' :: ' ' :: rest =
      condition'.chars ++ ',' :: ' ' :: rest') :
    condition.Alike condition' ∧ rest = rest' := by
  obtain ⟨hAlike, hBehind⟩ := Expr.alike_of_chars h h'
    (notNext_cons rfl _) (notNext_cons rfl _) hText
  exact ⟨hAlike, (List.cons.inj (List.cons.inj hBehind).2).2⟩

end

mutual

/-- The text of a statement, in front of anything, tells the statement and
where its text ends. -/
theorem alike_of_chars {stmt stmt' : Stmt} {rest rest' : List Char}
    (h : stmt.Fills legibleRoles) (h' : stmt'.Fills legibleRoles)
    (hText : stmt.chars ++ rest = stmt'.chars ++ rest') :
    stmt.Alike stmt' ∧ rest = rest' := by
  have hParen (text : List Char) : NotNext isInner (')' :: text) :=
    notNext_cons rfl text
  have hBlank (text : List Char) : NotNext isInner (' ' :: text) :=
    notNext_cons rfl text
  have hBlankSign (text : List Char) : NotNext isSignChar (' ' :: text) :=
    notNext_cons rfl text
  obtain ⟨hForm, hBody⟩ := form_and_body hText
  match stmt with
  | declare type name =>
      cases stmt' with
      | declare type' name' =>
          obtain ⟨hTypes, hBehind⟩ := word_unique (Source.isWordToken_of_type h.1)
            (Source.isWordToken_of_type h'.1) (hBlank _) (hBlank _) hBody
          obtain ⟨hNames, hRests⟩ := word_unique (Source.isWordToken_of_name h.2)
            (Source.isWordToken_of_name h'.2) (hParen _) (hParen _)
            (List.cons.inj hBehind).2
          exact ⟨⟨hTypes, hNames⟩, (List.cons.inj hRests).2⟩
      | _ => cases hForm
  | expression value =>
      cases stmt' with
      | expression value' => exact closed_unique h h' hBody
      | _ => cases hForm
  | assign name operator value =>
      cases stmt' with
      | assign name' operator' value' =>
          obtain ⟨hNames, hBehind⟩ := word_unique (Source.isWordToken_of_name h.1)
            (Source.isWordToken_of_name h'.1) (hBlank _) (hBlank _) hBody
          obtain ⟨hOperators, hBehind⟩ := Expr.operator_unique
            (Source.isOperatorToken_of_assignment h.2.1)
            (Source.isOperatorToken_of_assignment h'.2.1) (hBlankSign _)
            (hBlankSign _) (List.cons.inj hBehind).2
          obtain ⟨hValues, hRests⟩ :=
            closed_unique h.2.2 h'.2.2 (List.cons.inj hBehind).2
          exact ⟨⟨hNames, hOperators, hValues⟩, hRests⟩
      | _ => cases hForm
  | read name =>
      cases stmt' with
      | read name' =>
          obtain ⟨hNames, hRests⟩ := word_unique (Source.isWordToken_of_name h)
            (Source.isWordToken_of_name h') (hParen _) (hParen _) hBody
          exact ⟨hNames, (List.cons.inj hRests).2⟩
      | _ => cases hForm
  | write value =>
      cases stmt' with
      | write value' => exact closed_unique h h' hBody
      | _ => cases hForm
  | block members =>
      cases stmt' with
      | block members' =>
          obtain ⟨hMembers, hRests⟩ :=
            allAlike_of_members h h' (List.cons.inj hBody).2
          exact ⟨hMembers, (List.cons.inj hRests).2⟩
      | _ => cases hForm
  | ifThen condition thenPart =>
      cases stmt' with
      | ifThen condition' thenPart' =>
          obtain ⟨hConditions, hBehind⟩ := condition_unique h.1 h'.1 hBody
          obtain ⟨hParts, hRests⟩ := alike_of_chars h.2 h'.2 hBehind
          exact ⟨⟨hConditions, hParts⟩, (List.cons.inj hRests).2⟩
      | ifThenElse condition' thenPart' elsePart =>
          obtain ⟨-, hBehind⟩ := condition_unique h.1 h'.1 hBody
          obtain ⟨-, hRests⟩ := alike_of_chars h.2 h'.2.1 hBehind
          cases hRests
      | _ => cases hForm
  | ifThenElse condition thenPart elsePart =>
      cases stmt' with
      | ifThen condition' thenPart' =>
          obtain ⟨-, hBehind⟩ := condition_unique h.1 h'.1 hBody
          obtain ⟨-, hRests⟩ := alike_of_chars h.2.1 h'.2 hBehind
          cases hRests
      | ifThenElse condition' thenPart' elsePart' =>
          obtain ⟨hConditions, hBehind⟩ := condition_unique h.1 h'.1 hBody
          obtain ⟨hThens, hBehind⟩ := alike_of_chars h.2.1 h'.2.1 hBehind
          obtain ⟨hElses, hRests⟩ := alike_of_chars h.2.2 h'.2.2
            (List.cons.inj (List.cons.inj hBehind).2).2
          exact ⟨⟨hConditions, hThens, hElses⟩, (List.cons.inj hRests).2⟩
      | _ => cases hForm
  | whileLoop condition body =>
      cases stmt' with
      | whileLoop condition' body' =>
          obtain ⟨hConditions, hBehind⟩ := condition_unique h.1 h'.1 hBody
          obtain ⟨hBodies, hRests⟩ := alike_of_chars h.2 h'.2 hBehind
          exact ⟨⟨hConditions, hBodies⟩, (List.cons.inj hRests).2⟩
      | _ => cases hForm

/-- The texts of the members of a block tell them and where they end. -/
theorem allAlike_of_members {stmts stmts' : List Stmt} {rest rest' : List Char}
    (h : AllFill legibleRoles stmts) (h' : AllFill legibleRoles stmts')
    (hText : membersChars stmts ++ ']' :: rest =
      membersChars stmts' ++ ']' :: rest') :
    AllAlike stmts stmts' ∧ rest = rest' := by
  match stmts with
  | [] =>
      cases stmts' with
      | nil => exact ⟨trivial, (List.cons.inj hText).2⟩
      | cons first' more' =>
          rw [membersChars, membersChars, List.append_assoc] at hText
          exact absurd hText (chars_append_ne first' _ _)
  | first :: more =>
      cases stmts' with
      | nil =>
          rw [membersChars, membersChars, List.append_assoc] at hText
          exact absurd hText.symm (chars_append_ne first _ _)
      | cons first' more' =>
          rw [membersChars, membersChars, List.append_assoc,
            List.append_assoc] at hText
          obtain ⟨hFirsts, hBehind⟩ := alike_of_chars h.1 h'.1 hText
          obtain ⟨hMores, hRests⟩ := allAlike_of_more h.2 h'.2 hBehind
          exact ⟨⟨hFirsts, hMores⟩, hRests⟩

/-- So do the texts of further members. -/
theorem allAlike_of_more {stmts stmts' : List Stmt} {rest rest' : List Char}
    (h : AllFill legibleRoles stmts) (h' : AllFill legibleRoles stmts')
    (hText : moreChars stmts ++ ']' :: rest =
      moreChars stmts' ++ ']' :: rest') :
    AllAlike stmts stmts' ∧ rest = rest' := by
  match stmts with
  | [] =>
      cases stmts' with
      | nil => exact ⟨trivial, (List.cons.inj hText).2⟩
      | cons => cases hText
  | first :: more =>
      cases stmts' with
      | nil => cases hText
      | cons first' more' =>
          have hMembers : first.chars ++ moreChars more ++ ']' :: rest =
              first'.chars ++ moreChars more' ++ ']' :: rest' :=
            (List.cons.inj (List.cons.inj hText).2).2
          rw [List.append_assoc, List.append_assoc] at hMembers
          obtain ⟨hFirsts, hBehind⟩ := alike_of_chars h.1 h'.1 hMembers
          obtain ⟨hMores, hRests⟩ := allAlike_of_more h.2 h'.2 hBehind
          exact ⟨⟨hFirsts, hMores⟩, hRests⟩

end

end Stmt

/-! ## The other direction -/

theorem Literal.Alike.text_eq {value value' : Literal}
    (h : value.Alike value') : value.text = value'.text := by
  cases value <;> cases value' <;> first | exact h | exact congrArg Literal.text h

theorem lexeme_eq_of_unplaced {token token' : Token}
    (h : token.unplaced = token'.unplaced) : token.lexeme = token'.lexeme := by
  rw [← Token.lexeme_unplaced token, h, Token.lexeme_unplaced]

theorem Expr.Alike.text_eq {expr expr' : Expr} (h : expr.Alike expr') :
    expr.text = expr'.text := by
  induction expr generalizing expr' with
  | binary left operator right ihLeft ihRight =>
      cases expr' with
      | binary left' operator' right' =>
          obtain ⟨hLeft, hOperator, hRight⟩ := h
          rw [text_binary, text_binary, ihLeft hLeft, ihRight hRight,
            lexeme_eq_of_unplaced hOperator]
      | _ => exact h.elim
  | unary operator operand ih =>
      cases expr' with
      | unary operator' operand' =>
          obtain ⟨hOperator, hOperand⟩ := h
          rw [text_unary, text_unary, ih hOperand,
            lexeme_eq_of_unplaced hOperator]
      | _ => exact h.elim
  | literal value =>
      cases expr' with
      | literal value' =>
          rw [text_literal, text_literal]
          exact Literal.Alike.text_eq h
      | _ => exact h.elim
  | var name =>
      cases expr' with
      | var name' =>
          rw [text_var, text_var]
          exact lexeme_eq_of_unplaced h
      | _ => exact h.elim
  | group inner ih =>
      cases expr' with
      | group inner' =>
          have hInner : inner.Alike inner' := h
          rw [text_group, text_group, ih hInner]
      | _ => exact h.elim

namespace Stmt

/-- Statements of one form whose texts go on alike behind its name. -/
theorem chars_eq_of_body {stmt stmt' : Stmt} (hForm : stmt.form = stmt'.form)
    (hBody : stmt.bodyOnto [] = stmt'.bodyOnto []) :
    stmt.chars = stmt'.chars := by
  have hChars := chars_append stmt []
  rw [hForm, hBody, ← chars_append, List.append_nil, List.append_nil] at hChars
  exact hChars

theorem chars_eq_of_alike {expr expr' : Expr} (h : expr.Alike expr') :
    expr.chars = expr'.chars :=
  congrArg String.toList h.text_eq

mutual

theorem Alike.chars_eq {stmt stmt' : Stmt} (h : stmt.Alike stmt') :
    stmt.chars = stmt'.chars := by
  match stmt with
  | declare type name =>
      cases stmt' with
      | declare type' name' =>
          refine chars_eq_of_body rfl ?_
          simp only [bodyOnto, lexeme_eq_of_unplaced h.1,
            lexeme_eq_of_unplaced h.2]
      | _ => exact False.elim h
  | expression value =>
      cases stmt' with
      | expression value' =>
          refine chars_eq_of_body rfl ?_
          simp only [bodyOnto, chars_eq_of_alike h]
      | _ => exact False.elim h
  | assign name operator value =>
      cases stmt' with
      | assign name' operator' value' =>
          refine chars_eq_of_body rfl ?_
          simp only [bodyOnto, lexeme_eq_of_unplaced h.1,
            lexeme_eq_of_unplaced h.2.1, chars_eq_of_alike h.2.2]
      | _ => exact False.elim h
  | read name =>
      cases stmt' with
      | read name' =>
          refine chars_eq_of_body rfl ?_
          simp only [bodyOnto, lexeme_eq_of_unplaced h]
      | _ => exact False.elim h
  | write value =>
      cases stmt' with
      | write value' =>
          refine chars_eq_of_body rfl ?_
          simp only [bodyOnto, chars_eq_of_alike h]
      | _ => exact False.elim h
  | block members =>
      cases stmt' with
      | block members' =>
          have hMembers : AllAlike members members' := h
          refine chars_eq_of_body rfl ?_
          cases members with
          | nil =>
              cases members' with
              | nil => rfl
              | cons => exact False.elim hMembers
          | cons first more =>
              cases members' with
              | nil => exact False.elim hMembers
              | cons first' more' =>
                  simp only [bodyOnto, membersChars, hMembers.1.chars_eq,
                    hMembers.2.moreChars_eq]
      | _ => exact False.elim h
  | ifThen condition thenPart =>
      cases stmt' with
      | ifThen condition' thenPart' =>
          refine chars_eq_of_body rfl ?_
          simp only [bodyOnto, chars_eq_of_alike h.1, Alike.chars_eq h.2]
      | _ => exact False.elim h
  | ifThenElse condition thenPart elsePart =>
      cases stmt' with
      | ifThenElse condition' thenPart' elsePart' =>
          refine chars_eq_of_body rfl ?_
          simp only [bodyOnto, chars_eq_of_alike h.1, Alike.chars_eq h.2.1,
            Alike.chars_eq h.2.2]
      | _ => exact False.elim h
  | whileLoop condition body =>
      cases stmt' with
      | whileLoop condition' body' =>
          refine chars_eq_of_body rfl ?_
          simp only [bodyOnto, chars_eq_of_alike h.1, Alike.chars_eq h.2]
      | _ => exact False.elim h

theorem AllAlike.moreChars_eq {stmts stmts' : List Stmt}
    (h : AllAlike stmts stmts') : moreChars stmts = moreChars stmts' := by
  match stmts with
  | [] =>
      cases stmts' with
      | nil => rfl
      | cons => exact False.elim h
  | first :: more =>
      cases stmts' with
      | nil => exact False.elim h
      | cons first' more' =>
          rw [moreChars, moreChars, Alike.chars_eq h.1,
            AllAlike.moreChars_eq h.2]

end

/-- No strings and no infinite reals are in the statement. -/
def IsLegible (stmt : Stmt) : Prop :=
  stmt.Fills (.uniform (fun _ => True) Literal.IsLegible)

/-- What is read from a source and legible. -/
theorem fills_of_mem {source : String} {stmt : Stmt}
    (h : stmt ∈ partsAll (Program.ofTokens (scan source).tokens).stmts)
    (hLegible : stmt.IsLegible) : stmt.Fills legibleRoles :=
  ((Source.allFill_stmts source).of_mem_partsAll h).and hLegible

/-- **The text of a statement tells the statement.** Of any two statements, at
whatever depth, in what is read from two sources, neither with a string nor
with an infinite real in it, the texts are equal exactly if the statements are
the same but for the positions of tokens and for reals that are printed
alike. -/
theorem text_eq_iff_alike {source source' : String} {stmt stmt' : Stmt}
    (h : stmt ∈ partsAll (Program.ofTokens (scan source).tokens).stmts)
    (h' : stmt' ∈
      partsAll (Program.ofTokens (scan source').tokens).stmts)
    (hLegible : stmt.IsLegible) (hLegible' : stmt'.IsLegible) :
    stmt.text = stmt'.text ↔ stmt.Alike stmt' := by
  constructor
  · intro hText
    have hChars : stmt.chars ++ [] = stmt'.chars ++ [] := by
      rw [chars, chars, hText]
    exact (alike_of_chars (fills_of_mem h hLegible) (fills_of_mem h' hLegible')
      hChars).1
  · intro hAlike
    exact String.toList_inj.1 hAlike.chars_eq

/-- A blank in front of `a;` is not shown. -/
theorem text_eq_iff_alike_behind_blank :
    let stmt : Stmt := .expression (.var ⟨.identifier, "a", ⟨1, 1⟩⟩)
    let stmt' : Stmt := .expression (.var ⟨.identifier, "a", ⟨1, 2⟩⟩)
    stmt ∈ partsAll (Program.ofTokens (scan "a;").tokens).stmts ∧
      stmt' ∈ partsAll (Program.ofTokens (scan " a;").tokens).stmts ∧
      (stmt.text = stmt'.text ↔ stmt.Alike stmt') := by
  intro stmt stmt'
  have hName : Source.Piece.first 'a' [';'] = (.token .identifier ['a'], [';']) := by
    decide +kernel
  have hEnd : Source.Piece.first ';' [] = (.token .semicolon [';'], []) := by
    decide +kernel
  have hBlank : Source.Piece.first ' ' ['a', ';'] = (.blank ' ', ['a', ';']) := by
    decide +kernel
  have hTokens : (scan "a;").tokens =
      [⟨.identifier, "a", ⟨1, 1⟩⟩, ⟨.semicolon, ";", ⟨1, 2⟩⟩,
        .atEnd ⟨1, 3⟩] := by
    rw [scan, String.toList_ofList, cut_cons, hName, cut_cons, hEnd, cut_nil]
    rfl
  have hTokens' : (scan " a;").tokens =
      [⟨.identifier, "a", ⟨1, 2⟩⟩, ⟨.semicolon, ";", ⟨1, 3⟩⟩,
        .atEnd ⟨1, 4⟩] := by
    rw [scan, String.toList_ofList, cut_cons, hBlank, cut_cons, hName,
      cut_cons, hEnd, cut_nil]
    rfl
  have hMem : stmt ∈
      partsAll (Program.ofTokens (scan "a;").tokens).stmts := by
    rw [hTokens]
    cbv
    exact List.mem_cons_self
  have hMem' : stmt' ∈
      partsAll (Program.ofTokens (scan " a;").tokens).stmts := by
    rw [hTokens']
    cbv
    exact List.mem_cons_self
  exact ⟨hMem, hMem', text_eq_iff_alike hMem hMem' trivial trivial⟩

end Stmt

end ImpFront
