import ImpFront.Diagnostic.Snippet
import ImpFront.Report.Findings

/-!
# Findings as text

The report that a person reads goes to two channels: what was asked for
and found goes to one, the errors with their source lines to the other.
-/

namespace ImpFront.Report

open Diagnostic (unlines)

/-- Text for the two channels of a program. -/
structure Channels where
  out : String
  err : String
deriving DecidableEq, Repr

/-- A part of the report under a heading, behind an empty line. -/
def partIf (wanted : Bool) (heading : String) (lines : List String) :
    List String :=
  if wanted then "" :: heading :: lines else []

/-- The report about a file. -/
def listing (file : String) (withTokens withTrees color : Bool)
    (source : String) (found : Findings) : Channels :=
  let opening :=
    [Style.banner.paint color s!" Analizando archivo: {file}"] ++
      partIf withTokens "=== TOKENS ==="
        (found.scan.tokens.map Token.describe) ++
      partIf withTrees "=== AST ===" (found.program.stmts.map Stmt.text)
  let rendered (diagnostics : List Diagnostic) : String :=
    String.join (diagnostics.map fun d => d.render color source)
  match found.analysis? with
  | none =>
    { out := unlines opening
      err := rendered found.earlyDiagnostics ++
        unlines [Style.error.paint color
          "Análisis semántico omitido por errores léxicos o sintácticos."] }
  | some analysis =>
    let verdict :=
      if analysis.errors.isEmpty then
        "No se encontraron errores semánticos."
      else "=== ERRORES SEMÁNTICOS ==="
    { out := unlines (opening ++
        ["", verdict, "", "=== TABLA DE SÍMBOLOS ==="]) ++
          analysis.symbols.text
      err := rendered found.diagnostics }

/-- A line for each phase with what it counted and the time it took. -/
def progress (elapsed : Phase → String) (found : Findings) : List String :=
  [s!"[lexer] {found.scan.tokens.length} tokens, " ++
      s!"{found.scan.errors.length} errores ({elapsed .lexical})",
    s!"[parser] {found.program.stmts.length} sentencias, " ++
      s!"{found.program.errors.length} errores ({elapsed .syntactic})",
    match found.analysis? with
    | some analysis =>
      s!"[semantic] {analysis.symbols.size} símbolos, " ++
        s!"{analysis.errors.size} errores ({elapsed .semantic})"
    | none => "[semantic] omitido: hay errores léxicos o sintácticos"]

end ImpFront.Report
