import ImpFront.Literal
import ImpFront.Text.Column

/-!
# Declared variables

A symbol is what is known of a declared variable. The table keeps symbols
in the order of their declaration, at most one for each name: the first
declaration wins, and a later one is refused without any effect.

Two tables agree when they hold the same symbols, in whatever order.

## Main results

* `symbols_declare?`, `find?_declare?` — what a declaration adds.
* `declare?_eq_none_iff` — exactly the declared names are refused.
-/

namespace ImpFront

/-- A declared variable. -/
structure Symbol where
  name : String
  type : NumType
  /-- The label of the scope that the variable belongs to. -/
  scope : String
  /-- The value of the variable; no declaration gives it one. -/
  value? : Option Literal
  /-- The line of the declaration. -/
  line : Nat
deriving DecidableEq

namespace Symbol

/-- The text of the value; a variable without one shows as `nil` does. -/
def valueText (symbol : Symbol) : String :=
  (symbol.value?.getD .nil).text

/-- The cells of a row, the last of them without a width. -/
def row (name type scope value line : String) : String :=
  String.intercalate " "
    [Text.atLeft 10 name, Text.atLeft 10 type, Text.atLeft 10 scope,
      Text.atLeft 10 value, line]

/-- The symbol as a row of the table. -/
def text (symbol : Symbol) : String :=
  row symbol.name symbol.type.name symbol.scope symbol.valueText
    (toString symbol.line)

/-- Equality of symbols, with reals compared as numbers. -/
def agrees (a b : Symbol) : Bool :=
  a.name = b.name && a.type = b.type && a.scope = b.scope &&
    a.line = b.line &&
    (match a.value?, b.value? with
      | some v, some w => v.agrees w
      | none, none => true
      | _, _ => false)

end Symbol

/-- The declared variables, in the order of their declaration. -/
structure SymbolTable where
  symbols : List Symbol
  distinct : (symbols.map Symbol.name).Nodup
deriving DecidableEq

namespace SymbolTable

/-- The table before any declaration. -/
def empty : SymbolTable := ⟨[], List.nodup_nil⟩

/-- The symbol of a name. -/
def find? (table : SymbolTable) (name : String) : Option Symbol :=
  table.symbols.find? (·.name = name)

/-- Is the name declared? -/
def declares (table : SymbolTable) (name : String) : Bool :=
  (table.find? name).isSome

/-- The type with which a name was declared. -/
def typeOf? (table : SymbolTable) (name : String) : Option NumType :=
  (table.find? name).map Symbol.type

/-- The number of symbols. -/
def size (table : SymbolTable) : Nat := table.symbols.length

/-- Is no variable declared? -/
def isEmpty (table : SymbolTable) : Bool := table.symbols.isEmpty

theorem declares_iff {table : SymbolTable} {name : String} :
    table.declares name = true ↔ name ∈ table.symbols.map Symbol.name := by
  simp [declares, find?]

/-- The declared names are those that have a type. -/
theorem isSome_typeOf? (table : SymbolTable) (name : String) :
    (table.typeOf? name).isSome = table.declares name := by
  rw [typeOf?, declares, Option.isSome_map]

/-- Declare a variable behind all others; refused if its name is taken. -/
def declare? (table : SymbolTable) (symbol : Symbol) : Option SymbolTable :=
  if h : table.declares symbol.name then none
  else some
    { symbols := table.symbols ++ [symbol]
      distinct := by
        rw [declares_iff] at h
        rw [List.map_append, List.nodup_append]
        refine ⟨table.distinct, by simp, ?_⟩
        intro a hA b hB hSame
        have hB' : b = symbol.name := by simpa using hB
        exact h (hB' ▸ hSame ▸ hA) }

theorem declare?_eq_none_iff {table : SymbolTable} {symbol : Symbol} :
    table.declare? symbol = none ↔ table.declares symbol.name = true := by
  simp [declare?]

theorem symbols_declare? {table next : SymbolTable} {symbol : Symbol}
    (h : table.declare? symbol = some next) :
    next.symbols = table.symbols ++ [symbol] := by
  simp only [declare?] at h
  split at h
  · cases h
  · cases h; rfl

theorem find?_declare? {table next : SymbolTable} {symbol : Symbol}
    (h : table.declare? symbol = some next) (name : String) :
    next.find? name = if symbol.name = name then some symbol
      else table.find? name := by
  have hNone : table.declares symbol.name ≠ true := fun hTaken => by
    rw [declare?_eq_none_iff.2 hTaken] at h
    cases h
  simp only [find?, symbols_declare? h, List.find?_append]
  split
  · next hName =>
    subst hName
    have hFind : table.symbols.find? (·.name = symbol.name) = none := by
      simpa [declares, find?] using hNone
    simp [hFind]
  · next hName => simp [hName]

/-- Do two tables hold the same symbols, in whatever order? -/
def agrees (a b : SymbolTable) : Bool :=
  a.size = b.size &&
    a.symbols.all fun symbol =>
      match b.find? symbol.name with
      | some other => symbol.agrees other
      | none => false

/-- The table as text: a row of headings, and a row for each symbol. -/
def text (table : SymbolTable) : String :=
  String.join
    ((Symbol.row "Nombre" "Tipo" "Ámbito" "Valor" "Línea" :: table.symbols.map
      Symbol.text).map (· ++ "\n"))

end SymbolTable

end ImpFront
