import ImpFront.Proofs.Json.Grammar
import ImpFront.Proofs.Source.Determined

/-!
# Reading documents

`Json.read?` finds the document that a text stands for. It goes through the
text from left to right and decides by the character in front; each function
reads one thing from the front of a text and gives back what is left.

Whatever follows the grammar is read as the document it stands for, so no
text stands for two documents. This is shown along the rules. What has to be
known of the text behind is that it does not go on with a digit, and with no
blank where blanks have been passed over. Lists and objects are told by one
lemma for a single member and one for a further member.

The text is finite, and so is the number of calls: no part of a document is
longer than the document.

## Main results

* `IsChar.reads` — every way to write a character is read as it.
* `IsValue.reads` — every text for a document is read as it.
* `read?_eq_some` — the same for whole texts.
* `IsText.unique` — a text stands for at most one document.
-/

namespace ImpFront.Json

open Source (NotNext notNext_cons takeWhile_append_of_notNext
  dropWhile_append_of_notNext)
open Number (placeValue)

/-! ## The reader -/

/-- Pass over blanks. -/
def skip (text : List Char) : List Char := text.dropWhile isBlank

/-- Take a sign. -/
def sign? (sign : Char) : List Char → Option (List Char)
  | c :: rest => if c = sign then some rest else none
  | [] => none

/-- Read four hexadecimal digits. -/
def codeUnit? : List Char → Option (Nat × List Char)
  | a :: b :: c :: d :: rest => do
    let i ← hexValue? a
    let j ← hexValue? b
    let k ← hexValue? c
    let l ← hexValue? d
    return (((i * 16 + j) * 16 + k) * 16 + l, rest)
  | _ => none

/-- Read the second of two numbers for a character. -/
def lowUnit? : List Char → Option (Nat × List Char)
  | '\\' :: 'u' :: text => do
    let (second, rest) ← codeUnit? text
    if 0xDC00 ≤ second ∧ second < 0xE000 then some (second - 0xDC00, rest)
    else none
  | _ => none

/-- Read the rest of a character behind a backslash. -/
def escaped? : List Char → Option (Char × List Char)
  | 'u' :: text => do
    let (first, rest) ← codeUnit? text
    if 0xD800 ≤ first ∧ first < 0xDC00 then
      let (low, rest) ← lowUnit? rest
      return (Char.ofNat (0x10000 + (first - 0xD800) * 0x400 + low), rest)
    else if 0xDC00 ≤ first ∧ first < 0xE000 then none
    else return (Char.ofNat first, rest)
  | letter :: rest => do return (← escapes.lookup letter, rest)
  | [] => none

/-- Read a character between quotes. -/
def char? : List Char → Option (Char × List Char)
  | '\\' :: text => escaped? text
  | c :: rest => if isPlain c then some (c, rest) else none
  | [] => none

/-- Read characters up to a quote, and the quote. -/
def chars? : Nat → List Char → Option (List Char × List Char)
  | 0, _ => none
  | fuel + 1, text =>
    match char? text with
    | some (c, rest) => do
      let (cs, rest) ← chars? fuel rest
      return (c :: cs, rest)
    | none => do return ([], ← sign? '"' text)

/-- Read a text in quotes. -/
def string? (fuel : Nat) (text : List Char) :
    Option (String × List Char) := do
  let (cs, rest) ← chars? fuel (← sign? '"' text)
  return (String.ofList cs, rest)

/-- Read a number. -/
def number? (text : List Char) : Option (Nat × List Char) :=
  let digits := text.takeWhile Char.isDigit
  if digits = [] ∨ digits.head? = some '0' ∧ digits ≠ ['0'] then none
  else some (placeValue digits, text.dropWhile Char.isDigit)

section Members

variable {α : Type} (member? : List Char → Option (α × List Char))

/-- Read something with blanks around it. -/
def spaced? (text : List Char) : Option (α × List Char) := do
  let (member, rest) ← member? (skip text)
  return (member, skip rest)

/-- Read a name, a colon and something else. -/
def named? (fuel : Nat) (text : List Char) :
    Option ((String × α) × List Char) := do
  let (name, rest) ← spaced? (string? fuel) text
  let (member, rest) ← member? (← sign? ':' rest)
  return ((name, member), rest)

/-- Read members with commas between them, and the sign behind the last. -/
def members? (closing : Char) :
    Nat → List Char → Option (List α × List Char)
  | 0, _ => none
  | fuel + 1, text => do
    let (member, rest) ← member? text
    match sign? ',' rest with
    | some rest => do
      let (members, rest) ← members? closing fuel rest
      return (member :: members, rest)
    | none => do return ([member], ← sign? closing rest)

/-- Read members, or none, and the sign behind them. -/
def list? (closing : Char) (fuel : Nat) (text : List Char) :
    Option (List α × List Char) :=
  match members? member? closing fuel text with
  | some read => some read
  | none => do return ([], ← sign? closing (skip text))

end Members

/-- Read a document from the front of a text. -/
def value? : Nat → List Char → Option (Json × List Char)
  | 0, _ => none
  | fuel + 1, text =>
    match text with
    | 'n' :: 'u' :: 'l' :: 'l' :: rest => some (null, rest)
    | 't' :: 'r' :: 'u' :: 'e' :: rest => some (boolean true, rest)
    | 'f' :: 'a' :: 'l' :: 's' :: 'e' :: rest => some (boolean false, rest)
    | '"' :: _ => do
      let (value, rest) ← string? fuel text
      return (string value, rest)
    | '[' :: text => do
      let (items, rest) ← list? (spaced? (value? fuel)) ']' fuel text
      return (array items, rest)
    | '\x7b' :: text => do
      let (fields, rest) ←
        list? (named? (spaced? (value? fuel)) fuel) '\x7d' fuel text
      return (object fields, rest)
    | _ => do
      let (n, rest) ← number? text
      return (number n, rest)

/-- The document that a text stands for. -/
def read? (text : List Char) : Option Json :=
  match spaced? (value? text.length) text with
  | some (document, []) => some document
  | _ => none

/-! ## Texts in quotes -/

theorem sign?_cons (sign : Char) (rest : List Char) :
    sign? sign (sign :: rest) = some rest := if_pos rfl

theorem IsCodeUnit.reads {digits : List Char} {n : Nat}
    (h : IsCodeUnit digits n) (rest : List Char) :
    codeUnit? (digits ++ rest) = some (n, rest) := by
  obtain ⟨ha, hb, hc, hd⟩ := h
  simp [codeUnit?, ha, hb, hc, hd]

theorem IsCodeUnit.reads_low {digits : List Char} {low : Nat}
    (h : IsCodeUnit digits (0xDC00 + low)) (hLow : low < 0x400)
    (rest : List Char) :
    lowUnit? ('\\' :: 'u' :: (digits ++ rest)) = some (low, rest) := by
  simp only [lowUnit?, h.reads rest, Option.bind_eq_bind, Option.bind_some]
  rw [if_pos (by omega), Nat.add_sub_cancel_left]

/-- No character has one of the numbers that are written in twos. -/
theorem toNat_lt_or_ge (c : Char) : c.toNat < 0xD800 ∨ 0xE000 ≤ c.toNat := by
  rcases c.valid with h | h
  · exact .inl h
  · exact .inr h.1

/-- Every way to write a character is read as it. -/
theorem IsChar.reads {text : List Char} {c : Char} (h : IsChar text c)
    (rest : List Char) : char? (text ++ rest) = some (c, rest) := by
  cases h with
  | plain hPlain =>
      have hNot : c ≠ '\\' := by
        rintro rfl
        cases hPlain
      show char? (c :: rest) = _
      rw [char?, if_pos hPlain]
      exact hNot
  | escape hEscape =>
      simp only [escapes, List.mem_cons, Prod.mk.injEq, List.not_mem_nil,
        or_false] at hEscape
      rcases hEscape with ⟨rfl, rfl⟩ | ⟨rfl, rfl⟩ | ⟨rfl, rfl⟩ | ⟨rfl, rfl⟩ |
        ⟨rfl, rfl⟩ | ⟨rfl, rfl⟩ | ⟨rfl, rfl⟩ | ⟨rfl, rfl⟩ <;> rfl
  | @number digits _ hNumber =>
      have hRange := toNat_lt_or_ge c
      show escaped? ('u' :: (digits ++ rest)) = _
      simp only [escaped?, hNumber.reads rest, Option.bind_eq_bind,
        Option.bind_some]
      rw [if_neg (by omega), if_neg (by omega), Char.ofNat_toNat]
      rfl
  | @pair first second high low _ hFirst hHigh hSecond hLow hChar =>
      have hText : '\\' :: 'u' :: (first ++ '\\' :: 'u' :: second) ++ rest =
          '\\' :: 'u' :: (first ++ '\\' :: 'u' :: (second ++ rest)) := by
        simp
      rw [hText]
      show escaped? ('u' :: (first ++ '\\' :: 'u' :: (second ++ rest))) = _
      simp only [escaped?, hFirst.reads, Option.bind_eq_bind,
        Option.bind_some]
      rw [if_pos (by omega), hSecond.reads_low hLow, Option.bind_some,
        Nat.add_sub_cancel_left, ← hChar, Char.ofNat_toNat]
      rfl

theorem IsChar.length_pos {text : List Char} {c : Char} (h : IsChar text c) :
    0 < text.length := by
  cases h <;> exact Nat.succ_pos _

/-- Characters are read up to the quote behind them. -/
theorem IsChars.reads {text cs : List Char} (h : IsChars text cs)
    (rest : List Char) {fuel : Nat} (hFuel : text.length < fuel) :
    chars? fuel (text ++ '"' :: rest) = some (cs, rest) := by
  induction h generalizing fuel with
  | nil =>
      obtain ⟨fuel, rfl⟩ :=
        Nat.exists_eq_succ_of_ne_zero (Nat.ne_zero_of_lt hFuel)
      rfl
  | @cons text more c cs hChar hMore ih =>
      have hPos := hChar.length_pos
      rw [List.length_append] at hFuel
      obtain ⟨fuel, rfl⟩ :=
        Nat.exists_eq_succ_of_ne_zero (Nat.ne_zero_of_lt hFuel)
      rw [List.append_assoc, chars?, hChar.reads]
      simp only [ih (show more.length < fuel by omega), Option.bind_eq_bind,
        Option.bind_some]
      rfl

theorem IsString.reads {text : List Char} {value : String}
    (h : IsString text value) (rest : List Char) {fuel : Nat}
    (hFuel : text.length ≤ fuel + 1) :
    string? fuel (text ++ rest) = some (value, rest) := by
  cases h with
  | @quoted inside _ hInside =>
      have hText : '"' :: (inside ++ ['"']) ++ rest =
          '"' :: (inside ++ '"' :: rest) := by
        simp
      have hLength : inside.length < fuel := by
        simp only [List.length_cons, List.length_append] at hFuel
        omega
      simp only [string?, hText, sign?_cons, hInside.reads rest hLength,
        Option.bind_eq_bind, Option.bind_some, String.ofList_toList]
      rfl

/-! ## Numbers -/

theorem IsNumber.reads {digits rest : List Char} {n : Nat}
    (h : IsNumber digits n) (hRest : NotNext Char.isDigit rest) :
    number? (digits ++ rest) = some (n, rest) := by
  have hNot : ¬ (digits = [] ∨ digits.head? = some '0' ∧ digits ≠ ['0']) := by
    rintro (hNil | ⟨hHead, hMore⟩)
    · exact h.nonempty hNil
    · exact hMore (h.zero hHead)
  rw [number?, takeWhile_append_of_notNext h.isDigits hRest,
    dropWhile_append_of_notNext h.isDigits hRest, if_neg hNot, h.value]

/-- With a digit in front a document is a number. -/
theorem value?_of_isDigit {c : Char} (hDigit : c.isDigit = true) (fuel : Nat)
    (text : List Char) : value? (fuel + 1) (c :: text) = (do
      let (n, rest) ← number? (c :: text)
      return (number n, rest)) := by
  have hNot {d : Char} (hOther : d.isDigit = false) : c ≠ d := by
    rintro rfl
    rw [hDigit] at hOther
    cases hOther
  rw [value?]
  all_goals
    intro _ hText
    exact hNot (by decide) (List.cons.inj hText).1

/-! ## Blanks and members -/

/-- Could the character belong to what stands before it: as a further digit,
or as a further blank? -/
def goesOn (c : Char) : Bool := isBlank c || c.isDigit

theorem isBlank_eq_false_of_isDigit {c : Char} (h : c.isDigit = true) :
    isBlank c = false := by
  rw [← Bool.not_eq_true]
  intro hBlank
  simp only [isBlank, Bool.or_eq_true, decide_eq_true_iff] at hBlank
  rcases hBlank with ((rfl | rfl) | rfl) | rfl <;> cases h

theorem isDigit_eq_false_of_isBlank {c : Char} (h : isBlank c = true) :
    c.isDigit = false := by
  rw [← Bool.not_eq_true]
  intro hDigit
  rw [isBlank_eq_false_of_isDigit hDigit] at h
  cases h

section Members

variable {α : Type} {member? : List Char → Option (α × List Char)}
  {member : α} {members : List α} {closing : Char} {fuel : Nat}
  {text rest : List Char}

theorem skip_append {blanks : List Char} (hBlanks : IsBlank blanks)
    (hRest : NotNext isBlank rest) : skip (blanks ++ rest) = rest :=
  dropWhile_append_of_notNext hBlanks hRest

/-- What is read without blanks is read with blanks around it. -/
theorem spaced?_eq {before after : List Char} (hBefore : IsBlank before)
    (hText : NotNext isBlank (text ++ (after ++ rest)))
    (hMember : member? (text ++ (after ++ rest)) =
      some (member, after ++ rest))
    (hAfter : IsBlank after) (hRest : NotNext isBlank rest) :
    spaced? member? (before ++ (text ++ (after ++ rest))) =
      some (member, rest) := by
  simp only [spaced?, skip_append hBefore hText, hMember,
    Option.bind_eq_bind, Option.bind_some, skip_append hAfter hRest]
  rfl

/-- The last member. -/
theorem members?_one (hMember : member? text = some (member, closing :: rest))
    (hClosing : closing ≠ ',') :
    members? member? closing (fuel + 1) text = some ([member], rest) := by
  have hComma : sign? ',' (closing :: rest) = none := if_neg hClosing
  simp only [members?, hMember, hComma, sign?_cons, Option.bind_eq_bind,
    Option.bind_some]
  rfl

/-- A member with others behind it. -/
theorem members?_more {more : List Char}
    (hMember : member? text = some (member, ',' :: more))
    (hMore : members? member? closing fuel more = some (members, rest)) :
    members? member? closing (fuel + 1) text =
      some (member :: members, rest) := by
  simp only [members?, hMember, sign?_cons, hMore, Option.bind_eq_bind,
    Option.bind_some]
  rfl

/-- Members are read if there are any. -/
theorem list?_of_members
    (hMembers : members? member? closing fuel text = some (members, rest)) :
    list? member? closing fuel text = some (members, rest) := by
  rw [list?, hMembers]

/-- No members are read if none can begin with the sign behind them. -/
theorem list?_of_blanks {blanks : List Char} (hBlanks : IsBlank blanks)
    (hClosing : isBlank closing = false)
    (hMember : member? (blanks ++ closing :: rest) = none) :
    list? member? closing fuel (blanks ++ closing :: rest) =
      some ([], rest) := by
  have hMembers :
      members? member? closing fuel (blanks ++ closing :: rest) = none := by
    cases fuel with
    | zero => rfl
    | succ fuel =>
        rw [members?, hMember]
        rfl
  rw [list?, hMembers, skip_append hBlanks (notNext_cons hClosing rest)]
  simp only [sign?_cons, Option.bind_eq_bind, Option.bind_some]
  rfl

/-- Nothing is read with blanks in front if it is not read without them. -/
theorem spaced?_eq_none {blanks : List Char} (hBlanks : IsBlank blanks)
    (hText : NotNext isBlank text) (hMember : member? text = none) :
    spaced? member? (blanks ++ text) = none := by
  rw [spaced?, skip_append hBlanks hText, hMember]
  rfl

end Members

/-! ## Documents -/

theorem IsString.notNext {text : List Char} {value : String}
    (h : IsString text value) (rest : List Char) :
    NotNext isBlank (text ++ rest) := by
  cases h
  exact notNext_cons (by decide) _

/-- No document begins with a blank. -/
theorem IsValue.notNext {text : List Char} {document : Json}
    (h : IsValue text document) (rest : List Char) :
    NotNext isBlank (text ++ rest) := by
  cases h with
  | number hDigits =>
      obtain ⟨c, more, rfl⟩ := List.exists_cons_of_ne_nil hDigits.nonempty
      exact notNext_cons (isBlank_eq_false_of_isDigit
        (hDigits.isDigits c List.mem_cons_self)) _
  | string hText => exact hText.notNext rest
  | _ => exact notNext_cons (by decide) _

theorem notNext_blanks {after rest : List Char} (hAfter : IsBlank after)
    (hRest : NotNext goesOn rest) : NotNext Char.isDigit (after ++ rest) := by
  cases after with
  | nil =>
      intro c hHead
      exact (Bool.or_eq_false_iff.1 (hRest c hHead)).2
  | cons c after =>
      exact notNext_cons (isDigit_eq_false_of_isBlank
        (hAfter c List.mem_cons_self)) _

theorem IsValue.length_pos {text : List Char} {document : Json}
    (h : IsValue text document) : 0 < text.length := by
  cases h with
  | number hDigits => exact List.length_pos_iff.2 hDigits.nonempty
  | string hText => cases hText; exact Nat.succ_pos _
  | _ => exact Nat.succ_pos _

/-- No item begins with a closing bracket. -/
theorem value?_closing (fuel : Nat) (rest : List Char) :
    value? fuel (']' :: rest) = none := by
  cases fuel <;> rfl

section Steps

variable {fuel : Nat} {text rest : List Char}

theorem value?_string {value : String}
    (hText : string? fuel ('"' :: text) = some (value, rest)) :
    value? (fuel + 1) ('"' :: text) = some (string value, rest) := by
  simp only [value?, hText, Option.bind_eq_bind, Option.bind_some]
  rfl

theorem value?_array {items : List Json}
    (hItems : list? (spaced? (value? fuel)) ']' fuel text =
      some (items, rest)) :
    value? (fuel + 1) ('[' :: text) = some (array items, rest) := by
  simp only [value?, hItems, Option.bind_eq_bind, Option.bind_some]
  rfl

theorem value?_object {fields : List (String × Json)}
    (hFields : list? (named? (spaced? (value? fuel)) fuel) '\x7d' fuel text =
      some (fields, rest)) :
    value? (fuel + 1) ('\x7b' :: text) = some (object fields, rest) := by
  simp only [value?, hFields, Option.bind_eq_bind, Option.bind_some]
  rfl

end Steps

mutual

/-- Every text for a document is read as it, if no digit stands behind. -/
theorem IsValue.reads {text : List Char} {document : Json}
    (h : IsValue text document) {fuel : Nat} (hFuel : text.length ≤ fuel)
    {rest : List Char} (hRest : NotNext Char.isDigit rest) :
    value? fuel (text ++ rest) = some (document, rest) := by
  have hPos := h.length_pos
  obtain ⟨fuel, rfl⟩ :=
    Nat.exists_eq_succ_of_ne_zero (show fuel ≠ 0 by omega)
  match h with
  | .null => rfl
  | .true => rfl
  | .false => rfl
  | .number hDigits =>
      have hRead := hDigits.reads hRest
      obtain ⟨c, more, rfl⟩ := List.exists_cons_of_ne_nil hDigits.nonempty
      rw [List.cons_append] at hRead ⊢
      rw [value?_of_isDigit (hDigits.isDigits c List.mem_cons_self), hRead]
      rfl
  | .string hText =>
      have hRead := hText.reads rest hFuel
      cases hText
      exact value?_string hRead
  | @IsValue.emptyArray blanks hBlanks =>
      have hItem : spaced? (value? fuel) (blanks ++ ']' :: rest) = none :=
        spaced?_eq_none hBlanks (notNext_cons (by decide) rest)
          (value?_closing fuel rest)
      rw [List.cons_append, List.append_assoc]
      exact value?_array (list?_of_blanks hBlanks (by decide) hItem)
  | .array hItems =>
      simp only [List.length_cons, List.length_append] at hFuel
      rw [List.cons_append, List.append_assoc]
      exact value?_array (list?_of_members
        (hItems.reads (by omega) (by omega) rest))
  | @IsValue.emptyObject blanks hBlanks =>
      have hName : spaced? (string? fuel) (blanks ++ '\x7d' :: rest) = none :=
        spaced?_eq_none hBlanks (notNext_cons (by decide) rest) rfl
      have hField : named? (spaced? (value? fuel)) fuel
          (blanks ++ '\x7d' :: rest) = none := by
        rw [named?, hName]
        rfl
      rw [List.cons_append, List.append_assoc]
      exact value?_object (list?_of_blanks hBlanks (by decide) hField)
  | .object hFields =>
      simp only [List.length_cons, List.length_append] at hFuel
      rw [List.cons_append, List.append_assoc]
      exact value?_object (list?_of_members
        (hFields.reads (by omega) (by omega) rest))

theorem IsText.reads {text : List Char} {document : Json}
    (h : IsText text document) {fuel : Nat} (hFuel : text.length ≤ fuel)
    {rest : List Char} (hRest : NotNext goesOn rest) :
    spaced? (value? fuel) (text ++ rest) = some (document, rest) := by
  match h with
  | .around hBefore hValue hAfter =>
      simp only [List.length_append] at hFuel
      have hRead := hValue.reads (show _ ≤ fuel by omega)
        (notNext_blanks hAfter hRest)
      have hBlank : NotNext isBlank rest := fun c hHead =>
        (Bool.or_eq_false_iff.1 (hRest c hHead)).1
      rw [List.append_assoc, List.append_assoc]
      exact spaced?_eq hBefore (hValue.notNext _) hRead hAfter hBlank

theorem IsItems.reads {text : List Char} {items : List Json}
    (h : IsItems text items) {fuel count : Nat} (hFuel : text.length ≤ fuel)
    (hCount : text.length < count) (rest : List Char) :
    members? (spaced? (value? fuel)) ']' count (text ++ ']' :: rest) =
      some (items, rest) := by
  obtain ⟨count, rfl⟩ :=
    Nat.exists_eq_succ_of_ne_zero (Nat.ne_zero_of_lt hCount)
  match h with
  | .one hItem =>
      exact members?_one
        (hItem.reads hFuel (notNext_cons (by decide) rest)) (by decide)
  | .more hItem hMore =>
      simp only [List.length_append, List.length_cons] at hFuel hCount
      rw [List.append_assoc]
      exact members?_more
        (hItem.reads (by omega) (notNext_cons (by decide) _))
        (hMore.reads (by omega) (by omega) rest)

theorem IsField.reads {text : List Char} {field : String × Json}
    (h : IsField text field) {fuel : Nat} (hFuel : text.length ≤ fuel)
    {rest : List Char} (hRest : NotNext goesOn rest) :
    named? (spaced? (value? fuel)) fuel (text ++ rest) =
      some (field, rest) := by
  match h with
  | @IsField.named before quoted behind text _ _ hBefore hName hBehind
      hValue =>
      simp only [List.length_append, List.length_cons] at hFuel
      have hColon : NotNext isBlank (':' :: (text ++ rest)) :=
        notNext_cons (by decide) _
      have hRead := spaced?_eq hBefore (hName.notNext _)
        (hName.reads (behind ++ ':' :: (text ++ rest))
          (show _ ≤ fuel + 1 by omega)) hBehind hColon
      have hText : before ++ (quoted ++ (behind ++ ':' :: text)) ++ rest =
          before ++ (quoted ++ (behind ++ ':' :: (text ++ rest))) := by
        simp
      simp only [named?, hText, hRead, sign?_cons,
        hValue.reads (show text.length ≤ fuel by omega) hRest,
        Option.bind_eq_bind, Option.bind_some]
      rfl

theorem IsFields.reads {text : List Char} {fields : List (String × Json)}
    (h : IsFields text fields) {fuel count : Nat}
    (hFuel : text.length ≤ fuel) (hCount : text.length < count)
    (rest : List Char) :
    members? (named? (spaced? (value? fuel)) fuel) '\x7d' count
      (text ++ '\x7d' :: rest) = some (fields, rest) := by
  obtain ⟨count, rfl⟩ :=
    Nat.exists_eq_succ_of_ne_zero (Nat.ne_zero_of_lt hCount)
  match h with
  | .one hField =>
      exact members?_one
        (hField.reads hFuel (notNext_cons (by decide) rest)) (by decide)
  | .more hField hMore =>
      simp only [List.length_append, List.length_cons] at hFuel hCount
      rw [List.append_assoc]
      exact members?_more
        (hField.reads (by omega) (notNext_cons (by decide) _))
        (hMore.reads (by omega) (by omega) rest)

end

/-- **Documents are read back.** A text that follows the grammar is read as a
document that it stands for. -/
theorem read?_eq_some {text : List Char} {document : Json}
    (h : IsText text document) : read? text = some document := by
  have hRead := h.reads (Nat.le_refl _) (show NotNext goesOn [] from nofun)
  rw [List.append_nil] at hRead
  rw [read?, hRead]

-- Numbers for characters and blanks: not how documents are written here, but
-- a way in which they may be.
example : read? "[ \"\\u00E9\\ud83d\\ude00\" , 10 ]".toList =
    some (array [string "é😀", number 10]) := by
  rw [String.toList_ofList]
  rfl

/-- A text stands for at most one document. -/
theorem IsText.unique {text : List Char} {first second : Json}
    (hFirst : IsText text first) (hSecond : IsText text second) :
    first = second := by
  have hRead := read?_eq_some hFirst
  rw [read?_eq_some hSecond] at hRead
  exact (Option.some.inj hRead).symm

end ImpFront.Json
