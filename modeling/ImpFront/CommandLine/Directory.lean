/-!
# Files of a directory

What the command line sees of the directory it runs in: files and empty
directories, by their names. The name of a file is a path of parts between
slashes, each of which leads from one place to the next. An empty part and
the part `.` lead nowhere else, and `..` leads up. What lies outside the
directory is not known, except that there are directories above it.

## Main results

* `read_file` — a file is read under its own name.
-/

namespace ImpFront.CommandLine

/-- Why a file cannot be read as text. -/
inductive ReadFault
  | notFound
  | isDirectory
  /-- The path goes on behind a file. -/
  | notDirectory
  | notText
  /-- Any other reason, in the words of the system. -/
  | other (reason : String)
deriving DecidableEq, Repr

/-- The wording of a reason. -/
def ReadFault.message : ReadFault → String
  | notFound => "No such file or directory (os error 2)"
  | isDirectory => "Is a directory (os error 21)"
  | notDirectory => "Not a directory (os error 20)"
  | notText => "stream did not contain valid UTF-8"
  | other reason => reason

/-- A text held as bytes. -/
def decode (bytes : ByteArray) : Except ReadFault String :=
  match String.fromUTF8? bytes with
  | some text => .ok text
  | none => .error .notText

/-- An entry of a directory. -/
inductive Entry
  | file (bytes : ByteArray)
  | directory

/-- A directory whose own directories are empty. -/
structure Directory where
  entries : List (String × Entry)

/-- Where the parts of a path lead. -/
inductive Place
  /-- The directory that the command line runs in. -/
  | here
  /-- One of the empty directories in it. -/
  | inside
  /-- A directory above it, or next to those above it. -/
  | outside
  | file (bytes : ByteArray)

namespace Place

/-- The directory above a directory. -/
def up : Place → Place
  | inside => here
  | _ => outside

/-- The text that stands at a place. -/
def read : Place → Except ReadFault String
  | file bytes => decode bytes
  | _ => .error .isDirectory

end Place

namespace Directory

/-- What a name leads to. -/
def find (directory : Directory) (name : String) : Except ReadFault Place :=
  match directory.entries.lookup name with
  | some (.file bytes) => .ok (.file bytes)
  | some .directory => .ok .inside
  | none => .error .notFound

/-- Follow one part of a path. -/
def follow (directory : Directory) (place : Place) (part : String) :
    Except ReadFault Place :=
  match place with
  | .file _ => .error .notDirectory
  | place =>
    if part = "" ∨ part = "." then .ok place
    else if part = ".." then .ok place.up
    else
      match place with
      | .here => directory.find part
      | _ => .error .notFound

/-- Follow the parts of a path, from outside if it begins with a slash. -/
def followAll (directory : Directory) (parts : List String) :
    Except ReadFault Place :=
  let start := if parts.head? = some "" then Place.outside else .here
  parts.foldlM directory.follow start

/-- The text of a file. -/
def read (directory : Directory) (name : String) :
    Except ReadFault String := do
  (← directory.followAll (name.splitOn "/")).read

theorem read_file {directory : Directory} {name : String}
    {bytes : ByteArray} (hPlain : name.splitOn "/" = [name])
    (hName : name ≠ "" ∧ name ≠ "." ∧ name ≠ "..")
    (hFile : directory.entries.lookup name = some (.file bytes)) :
    directory.read name = decode bytes := by
  obtain ⟨hEmpty, hDot, hUp⟩ := hName
  have hFollow : directory.follow .here name = .ok (.file bytes) := by
    simp [follow, hEmpty, hDot, hUp, find, hFile]
  simp only [read, followAll, hPlain, List.head?_cons, Option.some.injEq,
    hEmpty, if_false, List.foldlM_cons, hFollow]
  rfl

end Directory

end ImpFront.CommandLine
