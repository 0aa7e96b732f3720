/-!
# Colours

The parts of a report that are set off by colour on a terminal. Colour is
switched on and off by escape sequences around the text; without colour
the text stands alone.

## Main results

* `paint_false` — without colour nothing is added.
-/

namespace ImpFront

/-- What a piece of a report is, as far as its colour goes. -/
inductive Style
  | error
  | caret
  | hint
  | gutter
  | banner
deriving DecidableEq, Repr

namespace Style

/-- The numbers that switch a style on, the outermost first, and those
that switch it off again. -/
def codes : Style → List Nat × List Nat
  | error => ([1, 31], [39, 0])
  | caret => ([31], [39])
  | hint => ([33], [39])
  | gutter => ([90], [39])
  | banner => ([32, 1], [0, 39])

/-- The escape sequences of a list of numbers. -/
def escapes (numbers : List Nat) : String :=
  String.join (numbers.map fun n => s!"\x1b[{n}m")

/-- The text in its style, if there is colour. -/
def paint (style : Style) (color : Bool) (text : String) : String :=
  if color then escapes style.codes.1 ++ text ++ escapes style.codes.2
  else text

@[simp] theorem paint_false (style : Style) (text : String) :
    style.paint false text = text := rfl

end Style

end ImpFront
