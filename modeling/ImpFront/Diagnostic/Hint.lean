/-!
# Hints

To the most common mistakes a report adds a hint how to mend them. A hint
is chosen by the wording of the message: the first entry of the list with
a phrase that occurs in the message gives it.

## Main results

* `occurs_iff` — a phrase occurs where it stands between two other texts.
-/

namespace ImpFront.Diagnostic

/-- Does the phrase occur in the text? -/
def occurs (phrase : List Char) : List Char → Bool
  | [] => phrase.isEmpty
  | c :: text => phrase.isPrefixOf (c :: text) || occurs phrase text

theorem occurs_iff {phrase text : List Char} :
    occurs phrase text = true ↔ phrase <:+: text := by
  induction text with
  | nil => simp [occurs]
  | cons c text ih =>
    rw [occurs, Bool.or_eq_true, List.isPrefixOf_iff_prefix, ih,
      List.infix_cons_iff]

/-- Phrases of messages, and the hint for each. -/
def hints : List (String × String) :=
  [("sin cierre de comillas",
      "cierre la cadena con '\"' antes del final del archivo."),
    ("Comentario multilínea sin cierre", "todo '/*' necesita su '*/'."),
    ("Se esperaba ';'", "cada sentencia y declaración termina en ';'."),
    ("Se esperaba 'then'",
      "la sintaxis es: if (condición) then sentencia [else sentencia]"),
    ("sin declarar",
      "declare la variable con 'long' o 'double' antes de usarla."),
    ("no declarada",
      "declare la variable con 'long' o 'double' antes de usarla."),
    ("redeclarada",
      "cada nombre se declara una sola vez; " ++
        "los bloques no abren ámbitos nuevos."),
    ("incompatible", "'long' y 'double' no se convierten implícitamente.")]

/-- The hint for a message, if there is one. -/
def hint? (message : String) : Option String :=
  (hints.find? fun entry => occurs entry.1.toList message.toList).map (·.2)

end ImpFront.Diagnostic
