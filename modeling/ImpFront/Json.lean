/-!
# JSON documents

Documents of the data format JSON, as far as reports need them: numbers
are natural, and the fields of an object keep their order. `Json.write`
lays a document out over several lines, two blanks deeper for each list or
object around an entry; lists and objects without entries stay on one
line.

A long list is written in a loop, onto the text written before.

## Main results

* `writeOnto_eq` — the text written before has no part in what follows.
-/

namespace ImpFront

/-- A JSON document. -/
inductive Json
  | null
  | boolean (value : Bool)
  | number (value : Nat)
  | string (value : String)
  | array (items : List Json)
  | object (fields : List (String × Json))

namespace Json

/-- The text or `null`. -/
def ofText? (text? : Option String) : Json :=
  match text? with
  | some text => string text
  | none => null

/-- The number or `null`. -/
def ofNumber? (number? : Option Nat) : Json :=
  match number? with
  | some n => number n
  | none => null

/-- A hexadecimal digit, in lower case. -/
def hexDigit (n : Nat) : Char := Nat.digitChar (n % 16)

/-- A character inside a text. Quotes, backslashes and control characters
are escaped, the latter by a letter if they have one; all others stand for
themselves. -/
def escapeChar (c : Char) : List Char :=
  if c = '"' then ['\\', '"']
  else if c = '\\' then ['\\', '\\']
  else if c = '\n' then ['\\', 'n']
  else if c = '\r' then ['\\', 'r']
  else if c = '\t' then ['\\', 't']
  else if c = '\x08' then ['\\', 'b']
  else if c = '\x0c' then ['\\', 'f']
  else if c.toNat < 0x20 then
    ['\\', 'u', '0', '0', hexDigit (c.toNat / 16), hexDigit c.toNat]
  else [c]

/-- A text in quotes. -/
def quote (text : String) : String :=
  String.ofList ('"' :: text.toList.flatMap escapeChar ++ ['"'])

/-- A new line at a depth. -/
def newline (depth : Nat) : String :=
  String.ofList ('\n' :: List.replicate (2 * depth) ' ')

mutual

/-- Write a document at a depth, behind the text `out`. -/
def writeOnto (out : String) (depth : Nat) : Json → String
  | null => out ++ "null"
  | boolean true => out ++ "true"
  | boolean false => out ++ "false"
  | number n => out ++ toString n
  | string text => out ++ quote text
  | array [] => out ++ "[]"
  | array (item :: items) =>
    writeItems (writeOnto (out ++ "[" ++ newline (depth + 1)) (depth + 1) item)
      (depth + 1) items ++ newline depth ++ "]"
  | object [] => out ++ "\x7b\x7d"
  | object ((name, value) :: fields) =>
    writeFields (writeOnto
      (out ++ "\x7b" ++ newline (depth + 1) ++ quote name ++ ": ")
      (depth + 1) value) (depth + 1) fields ++ newline depth ++ "\x7d"

/-- Write the items of a list but the first. -/
def writeItems (out : String) (depth : Nat) : List Json → String
  | [] => out
  | item :: items =>
    writeItems (writeOnto (out ++ "," ++ newline depth) depth item) depth items

/-- Write the fields of an object but the first. -/
def writeFields (out : String) (depth : Nat) :
    List (String × Json) → String
  | [] => out
  | (name, value) :: fields =>
    writeFields (writeOnto
      (out ++ "," ++ newline depth ++ quote name ++ ": ") depth value)
      depth fields

end

/-- The text of a document. -/
def write (document : Json) : String := writeOnto "" 0 document

/-! ### Writing behind a text -/

mutual

theorem writeOnto_eq (out : String) (depth : Nat) (document : Json) :
    writeOnto out depth document = out ++ writeOnto "" depth document := by
  match document with
  | null | boolean true | boolean false | number _ | string _ | array []
  | object [] => simp [writeOnto]
  | array (item :: items) =>
    simp only [writeOnto]
    rw [writeItems_eq, writeOnto_eq _ _ item]
    conv => rhs; rw [writeItems_eq, writeOnto_eq _ _ item]
    simp [String.append_assoc]
  | object ((name, value) :: fields) =>
    simp only [writeOnto]
    rw [writeFields_eq, writeOnto_eq _ _ value]
    conv => rhs; rw [writeFields_eq, writeOnto_eq _ _ value]
    simp [String.append_assoc]

theorem writeItems_eq (out : String) (depth : Nat) (items : List Json) :
    writeItems out depth items = out ++ writeItems "" depth items := by
  match items with
  | [] => simp [writeItems]
  | item :: items =>
    simp only [writeItems]
    rw [writeItems_eq, writeOnto_eq _ _ item]
    conv => rhs; rw [writeItems_eq, writeOnto_eq _ _ item]
    simp [String.append_assoc]

theorem writeFields_eq (out : String) (depth : Nat)
    (fields : List (String × Json)) :
    writeFields out depth fields = out ++ writeFields "" depth fields := by
  match fields with
  | [] => simp [writeFields]
  | (name, value) :: fields =>
    simp only [writeFields]
    rw [writeFields_eq, writeOnto_eq _ _ value]
    conv => rhs; rw [writeFields_eq, writeOnto_eq _ _ value]
    simp [String.append_assoc]

end

end Json

end ImpFront
