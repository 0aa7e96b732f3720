import ImpFront.Diagnostic
import ImpFront.Grammar.Program
import ImpFront.Typing.Analysis

/-!
# What is found in a source text

The phases run one after another: the text is cut into tokens, the tokens
are read as a program, and the program is looked at for the use of its
variables. The last phase is left out when one of the others has found an
error, because a program with parts left out would be blamed for what they
declare.

## Main results

* `analysis?_isSome_iff` — the program is looked at exactly if the other
  phases have found nothing.
* `failed_iff` — a text fails exactly if there is something to report.
-/

namespace ImpFront

/-- What each phase made of a source text. -/
structure Findings where
  scan : Source.Scan
  program : Program
  /-- Missing if the program was not looked at. -/
  analysis? : Option Analysis

namespace Findings

/-- Have the first two phases found nothing? -/
def isSound (scan : Source.Scan) (program : Program) : Bool :=
  scan.errors.isEmpty && program.errors.isEmpty

/-- Look at a program if nothing is wrong with it so far. -/
def ofPhases (scan : Source.Scan) (program : Program) : Findings :=
  { scan
    program
    analysis? :=
      if isSound scan program then some (Analysis.ofStmts program.stmts)
      else none }

/-- Run the phases on a source text. -/
def ofSource (source : String) : Findings :=
  let scan := Source.scan source
  ofPhases scan (Program.ofTokens scan.tokens)

/-- The errors of the first two phases, as they are reported. -/
def earlyDiagnostics (found : Findings) : List Diagnostic :=
  found.scan.errors.map LexicalError.diagnostic ++
    found.program.errors.map SyntaxError.diagnostic

/-- The errors of the last phase, as they are reported. -/
def lateDiagnostics (found : Findings) : List Diagnostic :=
  match found.analysis? with
  | some analysis => analysis.errors.toList.map SemanticError.diagnostic
  | none => []

/-- All errors in the order of the phases. -/
def diagnostics (found : Findings) : List Diagnostic :=
  found.earlyDiagnostics ++ found.lateDiagnostics

/-- The declared variables, as far as they were looked for. -/
def symbols (found : Findings) : List Symbol :=
  match found.analysis? with
  | some analysis => analysis.symbols.symbols
  | none => []

/-- Is anything wrong with the text? -/
def failed (found : Findings) : Bool :=
  !isSound found.scan found.program ||
    (match found.analysis? with
      | some analysis => !analysis.errors.isEmpty
      | none => false)

theorem analysis?_isSome_iff (source : String) :
    (ofSource source).analysis?.isSome = true ↔
      (ofSource source).earlyDiagnostics = [] := by
  simp only [ofSource, ofPhases, earlyDiagnostics]
  split <;> simp_all [isSound]

theorem failed_iff (found : Findings) :
    found.failed = true ↔ found.diagnostics ≠ [] := by
  unfold failed diagnostics earlyDiagnostics lateDiagnostics isSound
  cases found.analysis? <;> simp <;> grind

end Findings

end ImpFront
