import ImpFront.CommandLine.Directory
import ImpFront.CommandLine.Options
import ImpFront.Report.Document
import ImpFront.Report.Listing

/-!
# What the command line answers

The answer to a run is what it prints on its two channels and whether it
succeeded, as plain data. A run fails if its file cannot be read or if
anything was found; what was asked for has no part in that.

## Main results

* `succeeded_ofSource` — success depends on the source text alone.
-/

namespace ImpFront.CommandLine

open Diagnostic (unlines)
open Report (Channels)

/-- The answer to a run. -/
structure Response where
  succeeded : Bool
  channels : Channels
deriving DecidableEq, Repr

namespace Response

/-- The number with which a run ends: zero if it succeeded. -/
def exitCode (response : Response) : UInt32 :=
  if response.succeeded then 0 else 1

/-- The answer for a source text in which the phases have found something.
Colour is decided elsewhere, and so are the times that the phases took. -/
def ofFindings (options : Options) (color : Bool) (elapsed : Phase → String)
    (source : String) (found : Findings) : Response :=
  let progress :=
    if options.verbose then unlines (Report.progress elapsed found) else ""
  let report : Channels :=
    if options.json then
      ⟨(Report.document options.file options.tokens options.trees
        found).write ++ "\n", ""⟩
    else
      Report.listing options.file options.tokens options.trees color source
        found
  ⟨!found.failed, { report with err := progress ++ report.err }⟩

/-- The answer for a source text. -/
def ofSource (options : Options) (color : Bool) (elapsed : Phase → String)
    (source : String) : Response :=
  ofFindings options color elapsed source (Findings.ofSource source)

/-- The answer for a file that cannot be read. -/
def unreadable (options : Options) (color : Bool) (fault : ReadFault) :
    Response :=
  ⟨false, "", unlines
    [Style.error.paint color "error" ++
      s!": no se pudo leer '{options.file}': {fault.message}"]⟩

/-- The answer for what reading the file has given. -/
def ofContent (options : Options) (color : Bool) (elapsed : Phase → String) :
    Except ReadFault String → Response
  | .ok source => ofSource options color elapsed source
  | .error fault => unreadable options color fault

theorem succeeded_ofSource (options : Options) (color : Bool)
    (elapsed : Phase → String) (source : String) :
    (ofSource options color elapsed source).succeeded =
      !(Findings.ofSource source).failed := rfl

end Response

end ImpFront.CommandLine
