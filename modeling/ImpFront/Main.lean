import ImpFront.CommandLine.Response

/-!
# The command line

Reads the file that the arguments name, runs the phases over it, and
prints the answer. All that is decided about the answer is decided in
`ImpFront.CommandLine.Response`; here is only what touches the system:
files, channels, the clock, and whether there is a terminal.
-/

namespace ImpFront.CommandLine

/-- How to call the program. -/
def usage : String :=
  "Uso: impfront ARCHIVO [--tokens] [--ast] [--json] [--no-color] " ++
    "[--verbose]"

/-- The content of a file, or why there is none. A path through a file
cannot be opened, and the reason has its name; a directory can be opened
but not read. -/
def readSource (file : String) : IO (Except ReadFault String) := do
  try
    return decode (← IO.FS.readBinFile file)
  catch
    | .noFileOrDirectory .. => return .error .notFound
    | .inappropriateType (some _) .. => return .error .notDirectory
    | .inappropriateType none .. => return .error .isDirectory
    | reason => return .error (.other (toString reason))

/-- Is the error channel a terminal that wants colour? -/
def wantsColor (options : Options) : IO Bool := do
  if options.noColor || options.json then return false
  if (← IO.getEnv "NO_COLOR").isSome then return false
  (← IO.getStderr).isTty

/-- A value, and the time that it took to compute, in microseconds. -/
def timed {α : Type} (work : Unit → α) : IO (α × String) := do
  let before ← IO.monoNanosNow
  let value ← IO.lazyPure work
  let after ← IO.monoNanosNow
  return (value, s!"{(after - before) / 1000}µs")

/-- Check a source text, with a clock on each phase. -/
def check (options : Options) (color : Bool) (source : String) :
    IO Response := do
  let (scan, scanTime) ← timed fun _ => Source.scan source
  let (program, programTime) ← timed fun _ => Program.ofTokens scan.tokens
  let (found, analysisTime) ← timed fun _ => Findings.ofPhases scan program
  let elapsed : Phase → String
    | .lexical => scanTime
    | .syntactic => programTime
    | .semantic => analysisTime
  return .ofFindings options color elapsed source found

/-- Answer a run with arguments that make sense. -/
def run (options : Options) : IO UInt32 := do
  let color ← wantsColor options
  let response ←
    match ← readSource options.file with
    | .ok source => check options color source
    | .error fault => pure (.unreadable options color fault)
  IO.print response.channels.out
  IO.eprint response.channels.err
  return response.exitCode

/-- Answer a run. -/
def answer (arguments : List String) : IO UInt32 := do
  match Options.ofArguments arguments with
  | .ok options => run options
  | .error .helpWanted => IO.println usage; return 0
  | .error .versionWanted => IO.println "impfront 0.1.0"; return 0
  | .error _ => IO.eprintln usage; return 2

end ImpFront.CommandLine

/-- Run the command line. -/
def main (arguments : List String) : IO UInt32 :=
  ImpFront.CommandLine.answer arguments
