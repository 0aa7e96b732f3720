import ImpFront.Diagnostic
import ImpFront.Diagnostic.Hint
import ImpFront.Diagnostic.Paint
import ImpFront.Text.Column
import ImpFront.Text.Line

/-!
# Diagnostics with the source beside them

A diagnostic is printed as its line of text, then the source line that it
is about with its number in front, a caret below the column if the column
is known, and a hint if there is one. A line that the source does not have
is left out, and with it the caret.
-/

namespace ImpFront.Diagnostic

/-- What stands before a source line: its number, at least three wide, and
a bar. -/
def gutter (line : Nat) : String :=
  Text.atRight 3 (toString line) ++ " | "

/-- A caret below a column of the text behind a gutter. -/
def caret (line column : Nat) : String :=
  Text.atLeft ((gutter line).length + (column - 1)) "" ++ "^"

/-- The source line of a diagnostic. -/
def sourceLine? (source : String) (diagnostic : Diagnostic) :
    Option String :=
  if diagnostic.line = 0 then none
  else (Text.line? (diagnostic.line - 1) source.toList).map String.ofList

/-- The lines printed for a diagnostic. -/
def lines (color : Bool) (source : String) (diagnostic : Diagnostic) :
    List String :=
  let snippet :=
    match diagnostic.sourceLine? source with
    | none => []
    | some text =>
      (Style.gutter.paint color (gutter diagnostic.line) ++ text) ::
        (diagnostic.column?.map fun column =>
          Style.caret.paint color (caret diagnostic.line column)).toList
  let hint := (hint? diagnostic.message).map fun hint =>
    Style.hint.paint color s!"Ayuda: {hint}"
  Style.error.paint color diagnostic.rendered :: snippet ++ hint.toList

/-- Lines of text, each ended by a newline. -/
def unlines (lines : List String) : String :=
  String.join (lines.map (· ++ "\n"))

/-- A diagnostic as it is printed. -/
def render (color : Bool) (source : String) (diagnostic : Diagnostic) :
    String :=
  unlines (diagnostic.lines color source)

end ImpFront.Diagnostic
