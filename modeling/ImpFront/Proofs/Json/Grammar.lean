import ImpFront.Json
import ImpFront.Proofs.Number.Digits

/-!
# The grammar of documents

Which texts are documents of the format, and which documents they stand for,
is defined here by rules, apart from `Json.write`. The rules are those of the
standard as far as documents go: numbers are natural, and every text is made
of characters. There are many texts for a document, because blanks are free
between its parts and a character can be written in several ways.

What is written is one of these texts. Inside a text in quotes every
character is told by itself, so there it is enough to look at one character;
lists and objects are followed member by member, each with the blanks before
it and the last also with those behind it.

## Main results

* `isChar_escapeChar` — a character is written as one of its forms.
* `isNumber_toDigits` — a number is written without needless zeros.
* `isText_write` — what is written for a document is a text for it.
-/

namespace ImpFront.Json

open Source (IsDigits)
open Number (placeValue)

/-! ## Rules -/

/-- May the character stand between the parts of a document? -/
def isBlank (c : Char) : Bool :=
  c = ' ' || c = '\t' || c = '\n' || c = '\r'

/-- Nothing but blanks. -/
def IsBlank (text : List Char) : Prop := ∀ c ∈ text, isBlank c = true

/-- Can the character stand for itself between quotes? -/
def isPlain (c : Char) : Bool :=
  c ≠ '"' && c ≠ '\\' && 0x20 ≤ c.toNat

/-- The letters that can stand behind a backslash, and what they mean
there. -/
def escapes : List (Char × Char) :=
  [('"', '"'), ('\\', '\\'), ('/', '/'), ('b', '\x08'), ('f', '\x0c'),
    ('n', '\n'), ('r', '\r'), ('t', '\t')]

/-- The value of a hexadecimal digit, in either case. -/
def hexValue? (c : Char) : Option Nat :=
  if c.isDigit then some (c.toNat - '0'.toNat)
  else if 'a' ≤ c ∧ c ≤ 'f' then some (c.toNat - 'a'.toNat + 10)
  else if 'A' ≤ c ∧ c ≤ 'F' then some (c.toNat - 'A'.toNat + 10)
  else none

/-- Four hexadecimal digits, and the number that they denote. -/
inductive IsCodeUnit : List Char → Nat → Prop
  | digits {a b c d : Char} {i j k l : Nat} (ha : hexValue? a = some i)
      (hb : hexValue? b = some j) (hc : hexValue? c = some k)
      (hd : hexValue? d = some l) :
      IsCodeUnit [a, b, c, d] (((i * 16 + j) * 16 + k) * 16 + l)

/-- How a character can be written between quotes. Digits are its number; where
four are not enough, two numbers are written that no character has. -/
inductive IsChar : List Char → Char → Prop
  | plain {c : Char} (hPlain : isPlain c = true) : IsChar [c] c
  | escape {letter c : Char} (hEscape : (letter, c) ∈ escapes) :
      IsChar ['\\', letter] c
  | number {digits : List Char} {c : Char}
      (hNumber : IsCodeUnit digits c.toNat) :
      IsChar ('\\' :: 'u' :: digits) c
  | pair {first second : List Char} {high low : Nat} {c : Char}
      (hFirst : IsCodeUnit first (0xD800 + high)) (hHigh : high < 0x400)
      (hSecond : IsCodeUnit second (0xDC00 + low)) (hLow : low < 0x400)
      (hChar : c.toNat = 0x10000 + high * 0x400 + low) :
      IsChar ('\\' :: 'u' :: (first ++ '\\' :: 'u' :: second)) c

/-- How characters can be written one after another. -/
inductive IsChars : List Char → List Char → Prop
  | nil : IsChars [] []
  | cons {text rest : List Char} {c : Char} {cs : List Char}
      (hChar : IsChar text c) (hMore : IsChars rest cs) :
      IsChars (text ++ rest) (c :: cs)

/-- A text in quotes. -/
inductive IsString : List Char → String → Prop
  | quoted {inside : List Char} {value : String}
      (hInside : IsChars inside value.toList) :
      IsString ('"' :: (inside ++ ['"'])) value

/-- The digits of a number. A zero in front is the only digit. -/
structure IsNumber (digits : List Char) (n : Nat) : Prop where
  nonempty : digits ≠ []
  isDigits : IsDigits digits
  zero : digits.head? = some '0' → digits = ['0']
  value : placeValue digits = n

mutual

/-- The texts for a document that have no blanks around them. -/
inductive IsValue : List Char → Json → Prop
  | null : IsValue ['n', 'u', 'l', 'l'] null
  | true : IsValue ['t', 'r', 'u', 'e'] (boolean true)
  | false : IsValue ['f', 'a', 'l', 's', 'e'] (boolean false)
  | number {digits : List Char} {n : Nat} (hDigits : IsNumber digits n) :
      IsValue digits (number n)
  | string {text : List Char} {value : String} (hText : IsString text value) :
      IsValue text (string value)
  | emptyArray {blanks : List Char} (hBlanks : IsBlank blanks) :
      IsValue ('[' :: (blanks ++ [']'])) (array [])
  | array {text : List Char} {items : List Json} (hItems : IsItems text items) :
      IsValue ('[' :: (text ++ [']'])) (array items)
  | emptyObject {blanks : List Char} (hBlanks : IsBlank blanks) :
      IsValue ('\x7b' :: (blanks ++ ['\x7d'])) (object [])
  | object {text : List Char} {fields : List (String × Json)}
      (hFields : IsFields text fields) :
      IsValue ('\x7b' :: (text ++ ['\x7d'])) (object fields)

/-- The texts for a document. -/
inductive IsText : List Char → Json → Prop
  | around {before text after : List Char} {document : Json}
      (hBefore : IsBlank before) (hValue : IsValue text document)
      (hAfter : IsBlank after) : IsText (before ++ (text ++ after)) document

/-- The items of a list, with commas between them. -/
inductive IsItems : List Char → List Json → Prop
  | one {text : List Char} {item : Json} (hItem : IsText text item) :
      IsItems text [item]
  | more {text rest : List Char} {item : Json} {items : List Json}
      (hItem : IsText text item) (hMore : IsItems rest items) :
      IsItems (text ++ ',' :: rest) (item :: items)

/-- A field of an object: its name, a colon and its value. -/
inductive IsField : List Char → String × Json → Prop
  | named {before quoted behind text : List Char} {name : String}
      {value : Json} (hBefore : IsBlank before) (hName : IsString quoted name)
      (hBehind : IsBlank behind) (hValue : IsText text value) :
      IsField (before ++ (quoted ++ (behind ++ ':' :: text))) (name, value)

/-- The fields of an object, with commas between them. -/
inductive IsFields : List Char → List (String × Json) → Prop
  | one {text : List Char} {field : String × Json}
      (hField : IsField text field) : IsFields text [field]
  | more {text rest : List Char} {field : String × Json}
      {fields : List (String × Json)} (hField : IsField text field)
      (hMore : IsFields rest fields) :
      IsFields (text ++ ',' :: rest) (field :: fields)

end

/-- No object in the document has two fields of one name, so that it does not
matter which of them a reader keeps. -/
inductive HasDistinctNames : Json → Prop
  | null : HasDistinctNames null
  | boolean (value : Bool) : HasDistinctNames (boolean value)
  | number (n : Nat) : HasDistinctNames (number n)
  | string (text : String) : HasDistinctNames (string text)
  | array {items : List Json}
      (hItems : ∀ item ∈ items, HasDistinctNames item) :
      HasDistinctNames (array items)
  | object {fields : List (String × Json)}
      (hNames : (fields.map Prod.fst).Nodup)
      (hFields : ∀ field ∈ fields, HasDistinctNames field.2) :
      HasDistinctNames (object fields)

/-! ## Characters -/

theorem hexValue?_hexDigit (n : Nat) :
    hexValue? (hexDigit n) = some (n % 16) := by
  have hAll : ∀ k < 16, hexValue? (Nat.digitChar k) = some k := by decide
  exact hAll (n % 16) (Nat.mod_lt n (by decide))

/-- A character is written as one of its forms. -/
theorem isChar_escapeChar (c : Char) : IsChar (escapeChar c) c := by
  unfold escapeChar
  split_ifs with hQuote hBackslash hNewline hReturn hTab hBack hPage hControl
  · exact .escape (by simp [hQuote, escapes])
  · exact .escape (by simp [hBackslash, escapes])
  · exact .escape (by simp [hNewline, escapes])
  · exact .escape (by simp [hReturn, escapes])
  · exact .escape (by simp [hTab, escapes])
  · exact .escape (by simp [hBack, escapes])
  · exact .escape (by simp [hPage, escapes])
  · have hDigits : IsCodeUnit
        ['0', '0', hexDigit (c.toNat / 16), hexDigit c.toNat]
        (((0 * 16 + 0) * 16 + c.toNat / 16 % 16) * 16 + c.toNat % 16) :=
      .digits rfl rfl (hexValue?_hexDigit _) (hexValue?_hexDigit _)
    have hNumber : ((0 * 16 + 0) * 16 + c.toNat / 16 % 16) * 16 +
        c.toNat % 16 = c.toNat := by omega
    rw [hNumber] at hDigits
    exact .number hDigits
  · refine .plain ?_
    simp [isPlain, hQuote, hBackslash, Nat.le_of_not_lt hControl]

theorem isChars_flatMap (cs : List Char) :
    IsChars (cs.flatMap escapeChar) cs := by
  induction cs with
  | nil => exact .nil
  | cons c cs ih =>
      rw [List.flatMap_cons]
      exact .cons (isChar_escapeChar c) ih

theorem isString_quote (value : String) :
    IsString (quote value).toList value := by
  rw [quote, String.toList_ofList, List.cons_append]
  exact .quoted (isChars_flatMap value.toList)

/-! ## Numbers -/

/-- A number that is written with a zero in front is zero. -/
theorem toDigits_eq_of_head? (n : Nat) :
    (Nat.toDigits 10 n).head? = some '0' → Nat.toDigits 10 n = ['0'] := by
  induction n using Nat.strongRecOn with
  | ind n ih =>
      intro hHead
      rcases Nat.lt_or_ge n 10 with hSmall | hLarge
      · rw [Nat.toDigits_of_lt_base hSmall] at hHead ⊢
        rw [Option.some.inj hHead]
      · rw [Nat.toDigits_of_base_le (by decide) hLarge, List.head?_append,
          List.head?_eq_some_head Nat.toDigits_ne_nil, Option.some_or,
          ← List.head?_eq_some_head Nat.toDigits_ne_nil] at hHead
        have hFront := ih (n / 10) (by omega) hHead
        have hZero : n / 10 = 0 := by
          rw [← Number.placeValue_toDigits (n / 10), hFront]
          rfl
        omega

/-- A number is written without needless zeros. -/
theorem isNumber_toDigits (n : Nat) : IsNumber (Nat.toDigits 10 n) n where
  nonempty := Nat.toDigits_ne_nil
  isDigits := Number.isDigits_toDigits n
  zero := toDigits_eq_of_head? n
  value := Number.placeValue_toDigits n

/-! ## Documents -/

theorem isBlank_nil : IsBlank [] := fun _ hMem => nomatch hMem

theorem isBlank_newline (depth : Nat) : IsBlank (newline depth).toList := by
  rw [newline, String.toList_ofList]
  refine List.forall_mem_cons.2 ⟨by decide, ?_⟩
  intro c hMem
  rw [List.eq_of_mem_replicate hMem]
  decide

section Members

variable {depth : Nat} {after : List Char}

/-- Items that are written one after another are the items of a list, with
any blanks behind the last. -/
theorem isItems_writeItems (hAfter : IsBlank after) {items : List Json} :
    ∀ {item : Json}, (∀ member ∈ item :: items,
      IsValue (writeOnto "" depth member).toList member) →
    IsItems ((newline depth).toList ++ ((writeOnto "" depth item).toList ++
      ((writeItems "" depth items).toList ++ after))) (item :: items) := by
  induction items with
  | nil =>
      intro item hItems
      exact .one (.around (isBlank_newline depth)
        (hItems item List.mem_cons_self) hAfter)
  | cons next items ih =>
      intro item hItems
      have hFirst : IsText ((newline depth).toList ++
          ((writeOnto "" depth item).toList ++ [])) item :=
        .around (isBlank_newline depth) (hItems item List.mem_cons_self)
          isBlank_nil
      have hMore := ih (fun member hMem =>
        hItems member (List.mem_cons_of_mem _ hMem))
      have hText : (writeItems "" depth (next :: items)).toList =
          ',' :: ((newline depth).toList ++
            ((writeOnto "" depth next).toList ++
              (writeItems "" depth items).toList)) := by
        rw [writeItems, writeItems_eq, writeOnto_eq]
        simp
      rw [hText]
      simpa using IsItems.more hFirst hMore

/-- Fields that are written one after another are the fields of an object, with
any blanks behind the last. -/
theorem isFields_writeFields (hAfter : IsBlank after)
    {fields : List (String × Json)} :
    ∀ {name : String} {value : Json}, (∀ member ∈ (name, value) :: fields,
      IsValue (writeOnto "" depth member.2).toList member.2) →
    IsFields ((newline depth).toList ++ ((quote name).toList ++
      (':' :: ' ' :: ((writeOnto "" depth value).toList ++
        ((writeFields "" depth fields).toList ++ after)))))
      ((name, value) :: fields) := by
  have hField {name : String} {value : Json} {behind : List Char}
      (hBehind : IsBlank behind)
      (hValue : IsValue (writeOnto "" depth value).toList value) :
      IsField ((newline depth).toList ++ ((quote name).toList ++
        ([] ++ ':' :: ([' '] ++ ((writeOnto "" depth value).toList ++
          behind))))) (name, value) :=
    .named (isBlank_newline depth) (isString_quote name) isBlank_nil
      (.around (List.forall_mem_singleton.2 (by decide)) hValue hBehind)
  induction fields with
  | nil =>
      intro name value hFields
      exact .one (hField hAfter (hFields (name, value) List.mem_cons_self))
  | cons field fields ih =>
      obtain ⟨nextName, nextValue⟩ := field
      intro name value hFields
      have hFirst := @hField name value [] isBlank_nil
        (hFields (name, value) List.mem_cons_self)
      have hMore := ih (fun member hMem =>
        hFields member (List.mem_cons_of_mem _ hMem))
      have hText :
          (writeFields "" depth ((nextName, nextValue) :: fields)).toList =
          ',' :: ((newline depth).toList ++ ((quote nextName).toList ++
            (':' :: ' ' :: ((writeOnto "" depth nextValue).toList ++
              (writeFields "" depth fields).toList)))) := by
        rw [writeFields, writeFields_eq, writeOnto_eq]
        simp
      rw [hText]
      simpa using IsFields.more hFirst hMore

end Members

mutual

/-- What is written for a document has the form of one, at every depth. -/
theorem isValue_writeOnto (depth : Nat) (document : Json) :
    IsValue (writeOnto "" depth document).toList document := by
  match document with
  | null => simpa [writeOnto] using IsValue.null
  | boolean true => simpa [writeOnto] using IsValue.true
  | boolean false => simpa [writeOnto] using IsValue.false
  | number n =>
      have hText : (writeOnto "" depth (number n)).toList =
          Nat.toDigits 10 n := by
        rw [writeOnto, String.empty_append, Nat.toString_eq_repr,
          Nat.repr_eq_ofList_toDigits, String.toList_ofList]
      rw [hText]
      exact .number (isNumber_toDigits n)
  | string value =>
      rw [writeOnto, String.empty_append]
      exact .string (isString_quote value)
  | array [] =>
      simpa [writeOnto] using IsValue.emptyArray isBlank_nil
  | array (item :: items) =>
      have hItems := isItems_writeItems (isBlank_newline depth)
        (isValue_writeOnto_items (depth + 1) (item :: items))
      have hText : (writeOnto "" depth (array (item :: items))).toList =
          '[' :: ((newline (depth + 1)).toList ++
            ((writeOnto "" (depth + 1) item).toList ++
              ((writeItems "" (depth + 1) items).toList ++
                (newline depth).toList)) ++ [']']) := by
        rw [writeOnto, writeItems_eq, writeOnto_eq]
        simp
      rw [hText]
      exact .array hItems
  | object [] =>
      simpa [writeOnto] using IsValue.emptyObject isBlank_nil
  | object ((name, value) :: fields) =>
      have hFields := isFields_writeFields (isBlank_newline depth)
        (isValue_writeOnto_fields (depth + 1) ((name, value) :: fields))
      have hText :
          (writeOnto "" depth (object ((name, value) :: fields))).toList =
          '\x7b' :: ((newline (depth + 1)).toList ++ ((quote name).toList ++
            (':' :: ' ' :: ((writeOnto "" (depth + 1) value).toList ++
              ((writeFields "" (depth + 1) fields).toList ++
                (newline depth).toList)))) ++ ['\x7d']) := by
        rw [writeOnto, writeFields_eq, writeOnto_eq]
        simp
      rw [hText]
      exact .object hFields

theorem isValue_writeOnto_items (depth : Nat) (items : List Json) :
    ∀ item ∈ items, IsValue (writeOnto "" depth item).toList item := by
  match items with
  | [] => exact fun _ hMem => nomatch hMem
  | item :: items =>
      exact List.forall_mem_cons.2 ⟨isValue_writeOnto depth item,
        isValue_writeOnto_items depth items⟩

theorem isValue_writeOnto_fields (depth : Nat)
    (fields : List (String × Json)) :
    ∀ field ∈ fields, IsValue (writeOnto "" depth field.2).toList field.2 := by
  match fields with
  | [] => exact fun _ hMem => nomatch hMem
  | (name, value) :: fields =>
      exact List.forall_mem_cons.2 ⟨isValue_writeOnto depth value,
        isValue_writeOnto_fields depth fields⟩

end

/-- Blanks may follow a document. -/
theorem IsText.append_blanks {text after : List Char} {document : Json}
    (h : IsText text document) (hAfter : IsBlank after) :
    IsText (text ++ after) document := by
  cases h with
  | around hBefore hValue hBehind =>
      rw [List.append_assoc, List.append_assoc]
      exact .around hBefore hValue
        (List.forall_mem_append.2 ⟨hBehind, hAfter⟩)

/-- **What is written is a document.** The text that is written for a document
follows the grammar, and stands for it. -/
theorem isText_write (document : Json) :
    IsText document.write.toList document := by
  have hText := IsText.around isBlank_nil (isValue_writeOnto 0 document)
    isBlank_nil
  rwa [List.append_nil, List.nil_append] at hText

end ImpFront.Json
