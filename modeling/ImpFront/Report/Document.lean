import ImpFront.Json
import ImpFront.Report.Findings

/-!
# Findings as a document

All that is known of a source text, as one JSON document: the name of the
file, on request its tokens and the texts of its statements, whether the
program was looked at, the errors, and the declared variables.
-/

namespace ImpFront.Report

/-- A token as an entry of the document. -/
def tokenEntry (token : Token) : Json :=
  .object
    [("kind", .string token.kind.name), ("lexeme", .string token.lexeme),
      ("line", .number token.line), ("col", .number token.column)]

/-- An error as an entry of the document. -/
def errorEntry (diagnostic : Diagnostic) : Json :=
  .object
    [("phase", .string diagnostic.phase.name),
      ("line", .number diagnostic.line),
      ("col", .ofNumber? diagnostic.column?),
      ("message", .string diagnostic.message),
      ("rendered", .string diagnostic.rendered)]

/-- A declared variable as an entry of the document. -/
def symbolEntry (symbol : Symbol) : Json :=
  .object
    [("name", .string symbol.name), ("type", .string symbol.type.name),
      ("scope", .string symbol.scope),
      ("value", .ofText? (symbol.value?.map Literal.text)),
      ("line", .number symbol.line)]

/-- A field that is there only on request. -/
def fieldIf (wanted : Bool) (name : String) (value : Json) :
    List (String × Json) :=
  if wanted then [(name, value)] else []

/-- The document about a file. -/
def document (file : String) (withTokens withTrees : Bool)
    (found : Findings) : Json :=
  .object
    ([("file", .string file)] ++
      fieldIf withTokens "tokens"
        (.array (found.scan.tokens.map tokenEntry)) ++
      fieldIf withTrees "ast"
        (.array (found.program.stmts.map fun stmt => .string stmt.text)) ++
      [("semantic_checked", .boolean found.analysis?.isSome),
        ("errors", .array (found.diagnostics.map errorEntry)),
        ("symbols", .array (found.symbols.map symbolEntry))])

end ImpFront.Report
