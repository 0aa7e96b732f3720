import ImpFront.Proofs.Json.Reader
import ImpFront.Proofs.Report.Agreement
import ImpFront.Proofs.Source.Sites

/-!
# What the document says

The document about a source text is printed so that other programs can read
it. What they have then is a `Content`: tokens, diagnostics and rows of
variables again, and no longer fields and their names. It is told from the
document field by field, and nothing else of the document is looked at. What
is not there was not asked for.

`Content.ofSource` says what there is to know of a source text, in the words
of the phases and without a document. That the two are the same comes from
one lemma for each kind of entry: an entry leads back to what it was made
from. Lists of entries follow from that, and that the text leads back to the
document is a fact about all documents.

## Main results

* `asList?_map` — entries that lead back do so in lists.
* `ofJson?_document` — a document leads back to its content.
* `report_lossless` — what is printed is a document, and says all there is.
-/

namespace ImpFront

open CommandLine (Options Response)
open Source (scan)

/-! ## Values of fields -/

namespace Json

variable {α : Type}

/-- The text that a document is. -/
def asText? : Json → Option String
  | string text => some text
  | _ => none

/-- The number that a document is. -/
def asNumber? : Json → Option Nat
  | number n => some n
  | _ => none

/-- The truth value that a document is. -/
def asBoolean? : Json → Option Bool
  | boolean value => some value
  | _ => none

/-- What a document is that may be missing. -/
def orNull? (read : Json → Option α) : Json → Option (Option α)
  | null => some none
  | document => (read document).map some

/-- What the items of a list are. -/
def asList? (read : Json → Option α) : Json → Option (List α)
  | array items => items.mapM read
  | _ => none

/-- If every entry leads back to what it was made from, a list of entries
does. -/
theorem asList?_map {β : Type} {entry : β → Json} {read : Json → Option α}
    {value : β → α} (hEntry : ∀ b, read (entry b) = some (value b))
    (bs : List β) :
    asList? read (array (bs.map entry)) = some (bs.map value) := by
  show (bs.map entry).mapM read = _
  induction bs with
  | nil => rfl
  | cons b bs ih =>
      rw [List.map_cons, List.mapM_cons, hEntry, ih]
      rfl

theorem orNull?_ofNumber? (number? : Option Nat) :
    orNull? asNumber? (ofNumber? number?) = some number? := by
  cases number? <;> rfl

theorem orNull?_ofText? (text? : Option String) :
    orNull? asText? (ofText? text?) = some text? := by
  cases text? <;> rfl

end Json

/-! ## Names -/

/-- The phase of a given name. -/
def Phase.ofName? : String → Option Phase
  | "lexical" => some lexical
  | "syntax" => some syntactic
  | "semantic" => some semantic
  | _ => none

theorem Phase.ofName?_name (phase : Phase) :
    ofName? phase.name = some phase := by
  cases phase <;> rfl

/-- The type of a given name. -/
def NumType.ofName? : String → Option NumType
  | "long" => some long
  | "double" => some double
  | _ => none

theorem NumType.ofName?_name (type : NumType) :
    ofName? type.name = some type := by
  cases type <;> rfl

namespace Report

open Json (asText? asNumber? asBoolean? asList? orNull? asList?_map)

/-! ## Entries -/

/-- A variable as the document shows it. -/
structure Row where
  name : String
  type : NumType
  scope : String
  /-- The text of the value. -/
  value? : Option String
  line : Nat
deriving DecidableEq, Repr

/-- The row of a variable. -/
def Row.ofSymbol (symbol : Symbol) : Row where
  name := symbol.name
  type := symbol.type
  scope := symbol.scope
  value? := symbol.value?.map Literal.text
  line := symbol.line

/-- The token that an entry is about. -/
def token? (entry : Json) : Option Token := do
  let kind ← Token.Kind.ofName? (← asText? (← field? "kind" entry))
  let lexeme ← asText? (← field? "lexeme" entry)
  let line ← asNumber? (← field? "line" entry)
  let column ← asNumber? (← field? "col" entry)
  return ⟨kind, lexeme, ⟨line, column⟩⟩

/-- The diagnostic that an entry is about. -/
def diagnostic? (entry : Json) : Option Diagnostic := do
  let phase ← Phase.ofName? (← asText? (← field? "phase" entry))
  let line ← asNumber? (← field? "line" entry)
  let column? ← orNull? asNumber? (← field? "col" entry)
  let message ← asText? (← field? "message" entry)
  let rendered ← asText? (← field? "rendered" entry)
  return { phase, line, column?, message, rendered }

/-- The row that an entry is about. -/
def row? (entry : Json) : Option Row := do
  let name ← asText? (← field? "name" entry)
  let type ← NumType.ofName? (← asText? (← field? "type" entry))
  let scope ← asText? (← field? "scope" entry)
  let value? ← orNull? asText? (← field? "value" entry)
  let line ← asNumber? (← field? "line" entry)
  return { name, type, scope, value?, line }

theorem token?_tokenEntry (token : Token) :
    token? (tokenEntry token) = some token := by
  show (Token.Kind.ofName? token.kind.name).bind _ = _
  rw [Token.Kind.ofName?_name]
  rfl

theorem diagnostic?_errorEntry (diagnostic : Diagnostic) :
    diagnostic? (errorEntry diagnostic) = some diagnostic := by
  show (Phase.ofName? diagnostic.phase.name).bind (fun phase =>
    (orNull? asNumber? (.ofNumber? diagnostic.column?)).bind _) = _
  rw [Phase.ofName?_name, Json.orNull?_ofNumber?]
  rfl

theorem row?_symbolEntry (symbol : Symbol) :
    row? (symbolEntry symbol) = some (.ofSymbol symbol) := by
  show (NumType.ofName? symbol.type.name).bind (fun type =>
    (orNull? asText? (.ofText? (symbol.value?.map Literal.text))).bind _) = _
  rw [NumType.ofName?_name, Json.orNull?_ofText?]
  rfl

/-! ## The document -/

/-- What a document says about a source text. -/
structure Content where
  file : String
  /-- Missing if they were not asked for. -/
  tokens? : Option (List Token)
  /-- Missing if they were not asked for. -/
  trees? : Option (List String)
  /-- Was the last phase entered? -/
  checked : Bool
  diagnostics : List Diagnostic
  rows : List Row
deriving DecidableEq, Repr

namespace Content

/-- What a field says, if there is one. -/
def fieldIf? {α : Type} (read : Json → Option α) (name : String)
    (document : Json) : Option (Option α) :=
  match field? name document with
  | some value => (read value).map some
  | none => some none

/-- What a document says. -/
def ofJson? (document : Json) : Option Content := do
  let file ← asText? (← field? "file" document)
  let tokens? ← fieldIf? (asList? token?) "tokens" document
  let trees? ← fieldIf? (asList? asText?) "ast" document
  let checked ← asBoolean? (← field? "semantic_checked" document)
  let diagnostics ← asList? diagnostic? (← field? "errors" document)
  let rows ← asList? row? (← field? "symbols" document)
  return { file, tokens?, trees?, checked, diagnostics, rows }

/-- What there is to know of a source text, as far as it is asked for. -/
def ofSource (options : Options) (source : String) : Content where
  file := options.file
  tokens? := if options.tokens then some (scan source).tokens else none
  trees? :=
    if options.trees then some ((readable source).stmts.map Stmt.text)
    else none
  checked := decide (Errors.ofSource source).EnterLast
  diagnostics := (Errors.ofSource source).diagnostics
  rows :=
    (if (Errors.ofSource source).EnterLast then
      (Analysis.ofStmts (readable source).stmts).symbols.symbols
    else []).map .ofSymbol

theorem fieldIf?_eq {α : Type} {read : Json → Option α} {name : String}
    {document value : Json} {wanted : Bool} {a : α}
    (hField : field? name document = if wanted then some value else none)
    (hRead : read value = some a) :
    fieldIf? read name document =
      some (if wanted then some a else none) := by
  rw [fieldIf?, hField]
  cases wanted with
  | false => rfl
  | true =>
      simp only [if_true, hRead]
      rfl

section Document

variable (file : String) (withTokens withTrees : Bool) (found : Findings)

/-- The fields that a document has on request are found if they were asked
for, whatever else was. -/
theorem field?_document_if :
    field? "tokens" (document file withTokens withTrees found) =
        (if withTokens then
          some (.array (found.scan.tokens.map tokenEntry)) else none) ∧
      field? "ast" (document file withTokens withTrees found) =
        (if withTrees then
          some (.array (found.program.stmts.map fun stmt =>
            .string stmt.text)) else none) := by
  cases withTokens <;> cases withTrees <;> exact ⟨rfl, rfl⟩

/-- A document leads back to its content. -/
theorem ofJson?_document :
    ofJson? (document file withTokens withTrees found) = some
      { file
        tokens? := if withTokens then some found.scan.tokens else none
        trees? :=
          if withTrees then some (found.program.stmts.map Stmt.text) else none
        checked := found.analysis?.isSome
        diagnostics := found.diagnostics
        rows := found.symbols.map .ofSymbol } := by
  obtain ⟨hChecked, hErrors, hSymbols⟩ :=
    field?_document file withTokens withTrees found
  obtain ⟨hTokens, hTrees⟩ :=
    field?_document_if file withTokens withTrees found
  have hFile : field? "file" (document file withTokens withTrees found) =
      some (.string file) := rfl
  have hTokensRead := asList?_map token?_tokenEntry found.scan.tokens
  have hTreesRead := asList?_map (fun _ => rfl : ∀ stmt : Stmt,
    asText? (.string stmt.text) = some stmt.text) found.program.stmts
  have hErrorsRead := asList?_map diagnostic?_errorEntry found.diagnostics
  have hRows := asList?_map row?_symbolEntry found.symbols
  rw [List.map_id'] at hTokensRead hErrorsRead
  simp only [ofJson?, hFile, hChecked, hErrors, hSymbols,
    fieldIf?_eq hTokens hTokensRead, fieldIf?_eq hTrees hTreesRead,
    Option.bind_eq_bind, Option.bind_some, hErrorsRead, hRows, asText?,
    asBoolean?]
  rfl

end Document

/-- The document of a run says what there is to know. -/
theorem ofJson?_documentOf (options : Options) (source : String) :
    ofJson? (Response.documentOf source options) =
      some (ofSource options source) := by
  rw [Response.documentOf, ofJson?_document,
    Findings.isSome_analysis?_ofSource, Findings.diagnostics_ofSource,
    Findings.symbols_ofSource]
  rfl

end Content

/-! ## Names of fields -/

/-- The entries of a list have distinct names if each of them has. -/
theorem hasDistinctNames_map {α : Type} {entry : α → Json}
    (hEntry : ∀ a, (entry a).HasDistinctNames) (as : List α) :
    (Json.array (as.map entry)).HasDistinctNames :=
  .array (List.forall_mem_map.2 fun a _ => hEntry a)

theorem hasDistinctNames_tokenEntry (token : Token) :
    (tokenEntry token).HasDistinctNames :=
  .object (by simp) (by simp [Json.HasDistinctNames.string,
    Json.HasDistinctNames.number])

theorem hasDistinctNames_errorEntry (diagnostic : Diagnostic) :
    (errorEntry diagnostic).HasDistinctNames := by
  have hColumn : (Json.ofNumber? diagnostic.column?).HasDistinctNames := by
    cases diagnostic.column? with
    | none => exact .null
    | some column => exact .number column
  exact .object (by simp) (by simp [Json.HasDistinctNames.string,
    Json.HasDistinctNames.number, hColumn])

theorem hasDistinctNames_symbolEntry (symbol : Symbol) :
    (symbolEntry symbol).HasDistinctNames := by
  have hValue :
      (Json.ofText? (symbol.value?.map Literal.text)).HasDistinctNames := by
    cases symbol.value? with
    | none => exact .null
    | some value => exact .string value.text
  exact .object (by simp) (by simp [Json.HasDistinctNames.string,
    Json.HasDistinctNames.number, hValue])

/-- No two fields in the document have one name. -/
theorem hasDistinctNames_document (file : String) (withTokens withTrees : Bool)
    (found : Findings) :
    (document file withTokens withTrees found).HasDistinctNames := by
  have hTokens := hasDistinctNames_map hasDistinctNames_tokenEntry
    found.scan.tokens
  have hTrees := hasDistinctNames_map
    (fun stmt : Stmt => Json.HasDistinctNames.string stmt.text)
    found.program.stmts
  have hErrors := hasDistinctNames_map hasDistinctNames_errorEntry
    found.diagnostics
  have hSymbols := hasDistinctNames_map hasDistinctNames_symbolEntry
    found.symbols
  have hFile := Json.HasDistinctNames.string file
  have hChecked := Json.HasDistinctNames.boolean found.analysis?.isSome
  cases withTokens <;> cases withTrees
  all_goals
    exact .object (by simp [fieldIf]) (by
      simp [fieldIf, hFile, hTokens, hTrees, hChecked, hErrors, hSymbols])

end Report

/-- The diagnostics without a column are those of the last phase. -/
theorem Errors.column?_eq_none_iff (errors : Errors) :
    ∀ diagnostic ∈ errors.diagnostics,
      (diagnostic.column? = none ↔ diagnostic.phase = .semantic) := by
  have hLexical (error : LexicalError) :
      error.diagnostic.column? = none ↔ error.diagnostic.phase = .semantic :=
    ⟨nofun, nofun⟩
  have hSyntactic (error : SyntaxError) :
      error.diagnostic.column? = none ↔ error.diagnostic.phase = .semantic :=
    ⟨nofun, nofun⟩
  have hSemantic (error : SemanticError) :
      error.diagnostic.column? = none ↔ error.diagnostic.phase = .semantic :=
    ⟨fun _ => rfl, fun _ => rfl⟩
  intro diagnostic hMem
  simp only [diagnostics, List.mem_append, List.mem_map] at hMem
  rcases hMem with (⟨error, -, rfl⟩ | ⟨error, -, rfl⟩) | ⟨error, -, rfl⟩
  · exact hLexical error
  · exact hSyntactic error
  · exact hSemantic error

namespace CommandLine.Response

open Report (Content)

variable (source : String) (options : Options) (color : Bool)
  (elapsed : Phase → String)

/-- What a run prints if the document is asked for. -/
def printed : List Char :=
  (forText source { options with json := true } color
    elapsed).channels.out.toList

/-- A document is printed, and a new line behind it. -/
theorem isText_printed :
    Json.IsText (printed source options color elapsed)
      (documentOf source options) := by
  have hPrinted : printed source options color elapsed =
      (documentOf source options).write.toList ++ ['\n'] := by
    rw [printed, forText_eq]
    exact String.toList_append
  rw [hPrinted]
  exact (Json.isText_write _).append_blanks
    (List.forall_mem_singleton.2 (by decide))

/-- **The document loses nothing.** For every file, every text in it and
whatever is asked for besides the document:

* what is printed is a text of the format, and stands for the document of the
  run, in which no object has two fields of one name;
* reading it gives back the name of the file, the tokens and the texts of the
  statements if and only if they were asked for, whether the last phase was
  entered, the diagnostics and the rows of the variables, all of them as the
  phases have them, in order and character by character;
* so does any document that the text could stand for, however it is read;
* the tokens include the one that stands behind all others;
* the diagnostics without a column are those of the last phase. -/
theorem report_lossless :
    Json.IsText (printed source options color elapsed)
        (documentOf source options) ∧
      (documentOf source options).HasDistinctNames ∧
      (Json.read? (printed source options color elapsed)).bind
          Content.ofJson? = some (.ofSource options source) ∧
      (∀ document,
        Json.IsText (printed source options color elapsed) document →
          Content.ofJson? document = some (.ofSource options source)) ∧
      (∃ front position, (scan source).tokens =
        front ++ [Token.atEnd position]) ∧
      ∀ diagnostic ∈ (Errors.ofSource source).diagnostics,
        (diagnostic.column? = none ↔ diagnostic.phase = .semantic) := by
  have hText := isText_printed source options color elapsed
  have hContent := Content.ofJson?_documentOf options source
  refine ⟨hText, Report.hasDistinctNames_document _ _ _ _, ?_, ?_,
    ⟨_, _, rfl⟩, Errors.column?_eq_none_iff _⟩
  · rw [Json.read?_eq_some hText]
    exact hContent
  · intro document hOther
    rw [hOther.unique hText]
    exact hContent

end CommandLine.Response

end ImpFront
