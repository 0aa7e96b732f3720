/-!
# Text in columns

Cells of a table are filled with blanks up to a width that is counted in
characters. A text that is too long is never cut.
-/

namespace ImpFront.Text

/-- As many blanks as the text is short of the width. -/
def blanksFor (width : Nat) (text : String) : String :=
  String.ofList (List.replicate (width - text.length) ' ')

/-- The text at the left of a cell. -/
def atLeft (width : Nat) (text : String) : String :=
  text ++ blanksFor width text

/-- The text at the right of a cell. -/
def atRight (width : Nat) (text : String) : String :=
  blanksFor width text ++ text

end ImpFront.Text
