/-!
# Arguments of the command line

One file is named among the arguments, and flags say what to report about
it. Arguments are taken from left to right, and the first that is wrong
decides. A flag has a long name behind two dashes, or a letter; letters
may share a dash. Behind `--` every argument names a file.

A file with an empty name is refused, but not before the next flag or the
end of the arguments, so that a fault between them is reported instead.

## Main results

* `ofArguments_nil` — a file has to be named.
-/

namespace ImpFront.CommandLine

/-- What to report, and about which file. -/
structure Options where
  file : String
  tokens : Bool
  trees : Bool
  json : Bool
  noColor : Bool
  verbose : Bool
deriving DecidableEq, Repr

/-- Why the arguments ask for no report. Two of the reasons are wishes. -/
inductive Refusal
  | missingFile
  | emptyFile
  | unknownArgument
  | repeatedFlag
  | valueForFlag
  | helpWanted
  | versionWanted
deriving DecidableEq, Repr

/-- What a flag stands for. -/
inductive Flag
  | tokens
  | trees
  | json
  | noColor
  | verbose
  | help
  | version
deriving DecidableEq, Repr

namespace Flag

/-- The flag with a long name. -/
def ofName? : String → Option Flag
  | "tokens" => some tokens
  | "ast" => some trees
  | "json" => some json
  | "no-color" => some noColor
  | "verbose" => some verbose
  | "help" => some help
  | "version" => some version
  | _ => none

/-- The flag with a letter. -/
def ofLetter? : Char → Option Flag
  | 'v' => some verbose
  | 'h' => some help
  | 'V' => some version
  | _ => none

end Flag

/-- What the arguments so far have said. -/
structure Progress where
  file? : Option String
  flags : List Flag
  /-- Do all arguments that follow name files? -/
  filesOnly : Bool
deriving DecidableEq, Repr

namespace Progress

/-- Before any argument. -/
def start : Progress := ⟨none, [], false⟩

/-- Refuse a file without a name. -/
def checkFile (seen : Progress) : Except Refusal Unit :=
  if seen.file? = some "" then .error .emptyFile else .ok ()

/-- Take a flag. -/
def takeFlag (seen : Progress) (flag : Flag) : Except Refusal Progress := do
  seen.checkFile
  if flag = .help then throw .helpWanted
  if flag = .version then throw .versionWanted
  if flag ∈ seen.flags then throw .repeatedFlag
  return { seen with flags := flag :: seen.flags }

/-- Take the letters behind a dash. -/
def takeLetters (seen : Progress) : List Char → Except Refusal Progress
  | [] => .ok seen
  | letter :: letters =>
    match Flag.ofLetter? letter with
    | none => .error .unknownArgument
    | some flag => do takeLetters (← seen.takeFlag flag) letters

/-- Take what stands behind two dashes: a name, or a name with a value. -/
def takeName (seen : Progress) (text : List Char) :
    Except Refusal Progress :=
  match Flag.ofName? (String.ofList (text.takeWhile (· != '='))) with
  | none => .error .unknownArgument
  | some flag =>
    if text.contains '=' then .error .valueForFlag else seen.takeFlag flag

/-- Take the name of a file. -/
def takeFile (seen : Progress) (file : String) : Except Refusal Progress :=
  match seen.file? with
  | none => .ok { seen with file? := some file }
  | some _ => .error .unknownArgument

/-- Take one argument. -/
def take (seen : Progress) (argument : String) : Except Refusal Progress :=
  if seen.filesOnly then seen.takeFile argument
  else
    match argument.toList with
    | ['-', '-'] => .ok { seen with filesOnly := true }
    | '-' :: '-' :: text => seen.takeName text
    | '-' :: letter :: letters => seen.takeLetters (letter :: letters)
    | _ => seen.takeFile argument

/-- What all arguments together ask for. -/
def finish (seen : Progress) : Except Refusal Options := do
  seen.checkFile
  match seen.file? with
  | none => throw .missingFile
  | some file =>
    return {
      file
      tokens := seen.flags.contains .tokens
      trees := seen.flags.contains .trees
      json := seen.flags.contains .json
      noColor := seen.flags.contains .noColor
      verbose := seen.flags.contains .verbose }

end Progress

/-- What a list of arguments asks for. -/
def Options.ofArguments (arguments : List String) :
    Except Refusal Options := do
  (← arguments.foldlM Progress.take .start).finish

theorem Options.ofArguments_nil :
    Options.ofArguments [] = .error .missingFile := rfl

end ImpFront.CommandLine
