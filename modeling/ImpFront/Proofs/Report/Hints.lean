import ImpFront.Diagnostic.Hint
import ImpFront.Proofs.Report.Agreement
import ImpFront.Proofs.Report.Unreported
import ImpFront.Proofs.Typing.Origin

/-!
# Hints are for the kind of an error

A hint is chosen by phrases that occur in the wording of a message, and some
messages quote a name from the source text. A variable may be called
`redeclarada` or `incompatible`, or have a name that makes a phrase up
together with the words around it. Still no hint is chosen by a name.

The names are words, and there is no blank in a word. The phrases that are
looked for before the right one is found all have a blank in front of their
first quote. The part up to that quote cannot stand across the quotes around
the name, nor inside the name; and it does not occur in what the message
says before and behind it. The other messages are made of a fixed number of
parts, and there it is enough to look at all of them.

## Main results

* `infix_quoting_iff` — where a phrase without quotes can occur.
* `hint?_quoting` — no name has a part in the choice of a hint.
* `hints_by_kind` — the hints of a source text.
-/

namespace ImpFront

open Source (scan)

/-! ## Hints for kinds of faults -/

/-- The hint for a lexical fault. -/
def LexicalFault.hint : LexicalFault → String
  | openString => "cierre la cadena con '\"' antes del final del archivo."
  | openComment => "todo '/*' necesita su '*/'."

/-- The hint for a syntactic fault. There is one if the end of a statement or
the word behind a condition is missing. -/
def SyntaxFault.hint? : SyntaxFault → Option String
  | declarationEnd | expressionEnd | assignmentEnd | readEnd | writeEnd =>
    some "cada sentencia y declaración termina en ';'."
  | ifThen =>
    some "la sintaxis es: if (condición) then sentencia [else sentencia]"
  | declarationName | anotherDeclarationName | assignmentName
  | assignmentOperator | readOpening | readName | readClosing | writeOpening
  | writeClosing | ifOpening | ifClosing | whileOpening | whileClosing
  | blockClosing | groupClosing | operand | integerTooLarge
  | realUnreadable => none

/-- The hint for a fault in the use of variables and types. -/
def SemanticFault.hint : SemanticFault → String
  | undeclared _ | undeclaredRead _ | usedUndeclared _ =>
    "declare la variable con 'long' o 'double' antes de usarla."
  | redeclared _ =>
    "cada nombre se declara una sola vez; " ++
      "los bloques no abren ámbitos nuevos."
  | incompatibleAssignment .. | incompatibleOperation .. =>
    "'long' y 'double' no se convierten implícitamente."

/-- The hints for the errors of all phases. -/
def Errors.hints (errors : Errors) : List (Option String) :=
  errors.lexical.map (fun error => some error.fault.hint) ++
    errors.syntactic.map (fun error => error.fault.hint?) ++
    errors.reportedLast.map fun error => some error.fault.hint

namespace Diagnostic

/-! ## Phrases in messages that quote a name -/

variable {front name back phrase : List Char}

/-- A text with a name in quotes. -/
def quoting (front name back : List Char) : List Char :=
  front ++ '\'' :: (name ++ '\'' :: back)

/-- A phrase does not reach across a character that it does not have. -/
theorem infix_append_cons_iff {c : Char} {first second : List Char}
    (hChar : c ∉ phrase) :
    phrase <:+: first ++ c :: second ↔
      phrase <:+: first ∨ phrase <:+: second := by
  have hPrefix {part : List Char} (hPart : part ⊆ phrase)
      (h : part <+: c :: second) : part = [] := by
    cases part with
    | nil => rfl
    | cons d part =>
        obtain ⟨rfl, -⟩ := List.cons_prefix_cons.1 h
        exact absurd (hPart List.mem_cons_self) hChar
  constructor
  · intro h
    rcases List.infix_append_iff_ne_nil.1 h with hFirst | hRest | hAcross
    · exact .inl hFirst
    · rcases List.infix_cons_iff.1 hRest with hHere | hSecond
      · rw [hPrefix (List.Subset.refl _) hHere]
        exact .inl List.nil_infix
      · exact .inr hSecond
    · obtain ⟨left, right, -, hRight, rfl, -, hHere⟩ := hAcross
      exact absurd (hPrefix (List.subset_append_right _ _) hHere) hRight
  · rintro (hFirst | hSecond)
    · exact List.infix_append_of_infix_left hFirst
    · exact List.infix_append_of_infix_right (List.infix_cons hSecond)

/-- Where a phrase without quotes can occur. -/
theorem infix_quoting_iff (hQuote : '\'' ∉ phrase) :
    phrase <:+: quoting front name back ↔
      phrase <:+: front ∨ phrase <:+: name ∨ phrase <:+: back := by
  rw [quoting, infix_append_cons_iff hQuote, infix_append_cons_iff hQuote]

/-- The part of a phrase in front of its first quote. -/
def stem (phrase : List Char) : List Char :=
  phrase.takeWhile (· ≠ '\'')

theorem quote_not_mem_stem (phrase : List Char) : '\'' ∉ stem phrase := by
  intro hMem
  simpa using List.mem_takeWhile_imp hMem

/-- Whatever name stands between the quotes, the phrase cannot occur: its
stem has a blank, which no name has, and is not found before or behind. -/
def isApart (front back phrase : List Char) : Bool :=
  (stem phrase).contains ' ' && !occurs (stem phrase) front &&
    !occurs (stem phrase) back

theorem occurs_quoting_of_isApart (hApart : isApart front back phrase = true)
    (hName : ' ' ∉ name) : occurs phrase (quoting front name back) = false := by
  rw [isApart, Bool.and_eq_true, Bool.and_eq_true, List.contains_iff_mem,
    Bool.not_eq_true', Bool.not_eq_true'] at hApart
  obtain ⟨⟨hBlank, hFront⟩, hBack⟩ := hApart
  rw [← Bool.not_eq_true, occurs_iff] at hFront hBack ⊢
  intro hPhrase
  have hStem : stem phrase <:+: quoting front name back :=
    (List.takeWhile_prefix _).isInfix.trans hPhrase
  rcases (infix_quoting_iff (quote_not_mem_stem phrase)).1 hStem with
    hIn | hIn | hIn
  · exact hFront hIn
  · exact hName (hIn.subset hBlank)
  · exact hBack hIn

/-! ## The choice of a hint -/

section Choice

variable {message chosen hint : String} (before after : List (String × String))

/-- The first phrase that occurs gives the hint. -/
theorem hint?_eq_some (hHints : hints = before ++ (chosen, hint) :: after)
    (hBefore : ∀ entry ∈ before, occurs entry.1.toList message.toList = false)
    (hHere : chosen.toList <:+: message.toList) :
    hint? message = some hint := by
  have hFind : hints.find? (fun entry => occurs entry.1.toList message.toList) =
      some (chosen, hint) := by
    rw [List.find?_eq_some_iff_append]
    refine ⟨occurs_iff.2 hHere, before, after, hHints, ?_⟩
    intro entry hMem
    rw [hBefore entry hMem]
    rfl
  rw [hint?, hFind]
  rfl

/-- The first phrase that is not kept apart from the message is in what stands
behind the name, so the name has no part in the choice. -/
theorem hint?_quoting (hMessage : message.toList = quoting front name back)
    (hHints : hints = before ++ (chosen, hint) :: after)
    (hBefore : (before.all fun entry =>
      isApart front back entry.1.toList) = true)
    (hHere : occurs chosen.toList back = true) (hName : ' ' ∉ name) :
    hint? message = some hint := by
  refine hint?_eq_some before after hHints ?_ ?_
  · intro entry hMem
    have hApart := List.all_eq_true.1 hBefore entry hMem
    rw [hMessage, occurs_quoting_of_isApart hApart hName]
  · have hBehind : back <:+: quoting front name back :=
      ⟨front ++ '\'' :: (name ++ ['\'']), [], by simp [quoting]⟩
    rw [hMessage]
    exact (occurs_iff.1 hHere).trans hBehind

/-- The phrases that are looked for before the last one have no colon, and all
of them have an `r`. -/
theorem colon_not_mem_and_r_mem : ∀ entry ∈ hints.take 7,
    ':' ∉ entry.1.toList ∧ 'r' ∈ entry.1.toList := by
  decide +kernel

/-- A message that ends with types and operators has the last of all hints:
there is no `r` behind the colon, and no other phrase in front of it. -/
theorem hint?_of_colon {rest : List Char}
    (hMessage : message.toList = front ++ ':' :: rest)
    (hBefore : ∀ entry ∈ hints.take 7, occurs entry.1.toList front = false)
    (hHere : occurs "incompatible".toList front = true) (hRest : 'r' ∉ rest) :
    hint? message =
      some "'long' y 'double' no se convierten implícitamente." := by
  refine hint?_eq_some (hints.take 7) [] rfl ?_ ?_
  · intro entry hMem
    obtain ⟨hColon, hLetter⟩ := colon_not_mem_and_r_mem entry hMem
    have hFront := hBefore entry hMem
    rw [← Bool.not_eq_true, occurs_iff] at hFront ⊢
    rw [hMessage, infix_append_cons_iff hColon]
    rintro (hIn | hIn)
    · exact hFront hIn
    · exact hRest (hIn.subset hLetter)
  · rw [hMessage]
    exact List.infix_append_of_infix_left (occurs_iff.1 hHere)

end Choice

end Diagnostic

open Diagnostic (hint? hint?_quoting quoting)

/-! ## The hint for each fault -/

theorem LexicalFault.hint?_message (fault : LexicalFault) :
    Diagnostic.hint? fault.message = some fault.hint := by
  cases fault <;> decide +kernel

theorem SyntaxFault.hint?_message (fault : SyntaxFault) :
    Diagnostic.hint? fault.message = fault.hint? := by
  have hAll : ∀ fault ∈ all, Diagnostic.hint? fault.message = fault.hint? := by
    -- Messages are turned into lists beforehand, which is slow to evaluate.
    simp only [all, List.forall_mem_cons, message, Diagnostic.hint?]
    repeat rw [String.toList_ofList]
    decide +kernel
  exact hAll fault (mem_all fault)

/-- A word has no blank in it. -/
theorem Source.IsWord.blank_not_mem {text : List Char} (h : IsWord text) :
    ' ' ∉ text := by
  obtain ⟨c, rest, rfl, hFirst, hRest⟩ := h
  have hBlank : Piece.continuesWord ' ' = false :=
    continuesWord_eq_false_of_isWhiteSpace (by decide)
  intro hMem
  rcases List.mem_cons.1 hMem with rfl | hMem
  · have hNot : Piece.beginsWord ' ' = false := by decide +kernel
    rw [hNot] at hFirst
    cases hFirst
  · rw [hRest ' ' hMem] at hBlank
    cases hBlank

namespace SemanticFault

/-- The faults about a name. -/
def aboutName (name : String) : List SemanticFault :=
  [redeclared name, undeclared name, undeclaredRead name, usedUndeclared name]

/-- Whatever a name is, it does not change the hint, if it has no blank. -/
theorem hint?_message_of_name {name : String} (hName : ' ' ∉ name.toList) :
    ∀ fault ∈ aboutName name, Diagnostic.hint? fault.message =
      some fault.hint := by
  have hQuoting (back : String) :
      ("Variable '" ++ name ++ ("'" ++ back)).toList =
        quoting "Variable ".toList name.toList back.toList := by
    simp [quoting]
  intro fault hMem
  simp only [aboutName, List.mem_cons, List.not_mem_nil, or_false] at hMem
  rcases hMem with rfl | rfl | rfl | rfl
  · exact hint?_quoting (Diagnostic.hints.take 6) (Diagnostic.hints.drop 7)
      (hQuoting " redeclarada.") rfl (by decide +kernel) (by decide +kernel)
      hName
  · exact hint?_quoting (Diagnostic.hints.take 5) (Diagnostic.hints.drop 6)
      (hQuoting " no declarada.") rfl (by decide +kernel) (by decide +kernel)
      hName
  · exact hint?_quoting (Diagnostic.hints.take 5) (Diagnostic.hints.drop 6)
      (hQuoting " no declarada antes del read.") rfl (by decide +kernel)
      (by decide +kernel) hName
  · exact hint?_quoting (Diagnostic.hints.take 4) (Diagnostic.hints.drop 5)
      (hQuoting " usada sin declarar.") rfl (by decide +kernel)
      (by decide +kernel) hName

theorem r_not_mem_name (type : NumType) : 'r' ∉ type.name.toList := by
  cases type <;> decide

theorem hint?_message_of_assignment (target value : NumType) :
    Diagnostic.hint? (incompatibleAssignment target value).message =
      some (incompatibleAssignment target value).hint := by
  have hMessage : (incompatibleAssignment target value).message.toList =
      "Asignación incompatible".toList ++
        ':' :: (" " ++ target.name ++ " = " ++ value.name).toList := by
    have hText : "Asignación incompatible: ".toList =
        "Asignación incompatible".toList ++ ':' :: " ".toList := by
      rw [String.toList_ofList, String.toList_ofList]
      rfl
    show ("Asignación incompatible: " ++ target.name ++ " = " ++
      value.name).toList = _
    simp only [String.toList_append, hText, List.append_assoc, List.cons_append]
  refine Diagnostic.hint?_of_colon hMessage (by decide +kernel)
    (by decide +kernel) ?_
  simp [r_not_mem_name]

theorem hint?_message_of_operation {operator : String}
    (hSigns : ∀ c ∈ operator.toList, Source.isSignChar c = true)
    (left right : NumType) :
    Diagnostic.hint? (incompatibleOperation operator left right).message =
      some (incompatibleOperation operator left right).hint := by
  have hMessage : (incompatibleOperation operator left right).message.toList =
      "Operación incompatible".toList ++
        ':' :: (" " ++ left.name ++ " " ++ operator ++ " " ++
          right.name).toList := by
    have hText : "Operación incompatible: ".toList =
        "Operación incompatible".toList ++ ':' :: " ".toList := by
      rw [String.toList_ofList, String.toList_ofList]
      rfl
    show ("Operación incompatible: " ++ left.name ++ " " ++ operator ++ " " ++
      right.name).toList = _
    simp only [String.toList_append, hText, List.append_assoc, List.cons_append]
  refine Diagnostic.hint?_of_colon hMessage (by decide +kernel)
    (by decide +kernel) ?_
  have hOperator : 'r' ∉ operator.toList := fun hMem => nomatch hSigns 'r' hMem
  simp [r_not_mem_name, hOperator]

end SemanticFault

/-- The errors that tell of tokens of a source have the hint of their
fault. -/
theorem SemanticError.TellsOf.hint?_message {error : SemanticError}
    (h : error.TellsOf Source.roles) :
    Diagnostic.hint? error.fault.message = some error.fault.hint := by
  have hName {name : Token} (hRole : Source.roles.name name) :
      ∀ fault ∈ SemanticFault.aboutName name.lexeme,
        Diagnostic.hint? fault.message = some fault.hint := by
    obtain ⟨hKind, hForm⟩ := hRole
    rw [hKind] at hForm
    exact SemanticFault.hint?_message_of_name hForm.1.blank_not_mem
  cases h with
  | redeclared hRole | undeclared hRole | undeclaredRead hRole
  | usedUndeclared hRole =>
      exact hName hRole _ (by simp [SemanticFault.aboutName])
  | incompatibleAssignment _ target value =>
      exact SemanticFault.hint?_message_of_assignment target value
  | @incompatibleOperation operator hRole left right =>
      have hOperator : Source.isOperator operator.kind = true := by
        rw [Source.isOperator, hRole.1, Bool.or_true]
      have hSigns := (Source.isSignChar_of_hasForm hOperator hRole.2).2
      exact SemanticFault.hint?_message_of_operation hSigns left right

/-- **Hints are for the kind of an error.** Whatever the source text is, its
diagnostics have, in their order, the hints for the faults that they are
about. And whatever its identifiers are, no fault about one of them has any
other hint than its own. -/
theorem hints_by_kind (source : String) :
    (Findings.ofSource source).diagnostics.map (hint? ·.message) =
      (Errors.ofSource source).hints ∧
    ∀ token ∈ (scan source).tokens, token.kind = .identifier →
      ∀ fault ∈ SemanticFault.aboutName token.lexeme,
        hint? fault.message = some fault.hint := by
  constructor
  · have hLexical : ∀ error ∈ (Errors.ofSource source).lexical,
        hint? error.diagnostic.message = some error.fault.hint :=
      fun error _ => error.fault.hint?_message
    have hSyntactic : ∀ error ∈ (Errors.ofSource source).syntactic,
        hint? error.diagnostic.message = error.fault.hint? :=
      fun error _ => error.fault.hint?_message
    have hTell := Analysis.errors_tell (Source.allFill_stmts source)
    have hSemantic : ∀ error ∈ (Errors.ofSource source).reportedLast,
        hint? error.diagnostic.message = some error.fault.hint := by
      intro error hMem
      rw [Errors.reportedLast] at hMem
      split at hMem
      · exact (hTell error (Array.mem_toList_iff.1 hMem)).hint?_message
      · cases hMem
    rw [Findings.diagnostics_ofSource, Errors.diagnostics, Errors.hints]
    simp only [List.map_append, List.map_map]
    exact congrArg₂ (· ++ ·)
      (congrArg₂ (· ++ ·) (List.map_congr_left hLexical)
        (List.map_congr_left hSyntactic))
      (List.map_congr_left hSemantic)
  · intro token hMem hKind
    have hForm := Source.hasForm_of_mem hMem (by rw [hKind]; decide)
    rw [hKind] at hForm
    exact SemanticFault.hint?_message_of_name hForm.1.blank_not_mem

end ImpFront
