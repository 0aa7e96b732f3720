import ImpFront.Proofs.Source.LongestMatch

/-!
# The form of a piece decides how a text is cut

`fits_first` says what the first piece of a text looks like. This module
goes the other way: if a text is made up of a piece and of `rest`, if the
piece has the form of its kind, and if `rest` does not go on with it, then
the piece is the first one of the text. So a text that is changed behind a
piece, or is written down from pieces in the first place, is still cut
where it was meant to be.

Two things carry this. The characters with which pieces begin fall into
classes that have no character in common, for which the tables of ranges
are compared; so the order of the rules in `Piece.first` decides nothing.
And each rule stops where its class ends, which is what `NotNext` asks for.

## Main results

* `leads_iff` — which piece comes first, by its form alone.
* `cut_append` — a text that begins with a piece is cut behind it.
-/

namespace ImpFront

namespace Text

/-- Ranges of which none meets one of the others have no character in
common. -/
theorem inRanges_eq_false_of_disjoint {first second : List (Nat × Nat)}
    (hDisjoint : ∀ a ∈ first, ∀ b ∈ second, a.2 < b.1 ∨ b.2 < a.1) {c : Char}
    (h : inRanges second c = true) : inRanges first c = false := by
  rw [← Bool.not_eq_true]
  intro hFirst
  obtain ⟨a, hMemA, hLowA, hHighA⟩ := inRanges_iff.1 hFirst
  obtain ⟨b, hMemB, hLowB, hHighB⟩ := inRanges_iff.1 h
  have hApart := hDisjoint a hMemA b hMemB
  omega

/-- No letter is white space. -/
theorem isWhiteSpace_eq_false_of_isAlphabetic {c : Char}
    (h : isAlphabetic c = true) : isWhiteSpace c = false :=
  inRanges_eq_false_of_disjoint (by decide +kernel) h

/-- No number is white space. -/
theorem isWhiteSpace_eq_false_of_isNumeric {c : Char}
    (h : isNumeric c = true) : isWhiteSpace c = false :=
  inRanges_eq_false_of_disjoint (by decide +kernel) h

/-- The ASCII digits are a range. -/
theorem inRanges_of_isDigit {c : Char} (h : c.isDigit = true) :
    inRanges [(0x30, 0x39)] c = true := by
  simp only [Char.isDigit, Bool.and_eq_true, decide_eq_true_eq,
    UInt32.le_iff_toNat_le] at h
  exact inRanges_iff.2 ⟨(0x30, 0x39), List.mem_cons_self .., h.1, h.2⟩

/-- No digit is white space or a letter. -/
theorem eq_false_of_isDigit {c : Char} (h : c.isDigit = true) :
    isWhiteSpace c = false ∧ isAlphabetic c = false := by
  have hDigit := inRanges_of_isDigit h
  exact ⟨inRanges_eq_false_of_disjoint (by decide +kernel) hDigit,
    inRanges_eq_false_of_disjoint (by decide +kernel) hDigit⟩

end Text

namespace Source

open Token (Kind)
open Piece (beginsWord continuesWord)

/-! ## Classes of first characters -/

/-- A character with which neither white space nor a word, a number or a
string begins. -/
def IsSign (c : Char) : Prop :=
  Text.isWhiteSpace c = false ∧ beginsWord c = false ∧ c.isDigit = false ∧
    c ≠ '"'

instance (c : Char) : Decidable (IsSign c) :=
  inferInstanceAs (Decidable (_ ∧ _))

instance (c : Char) : Decidable (IsStray c) :=
  inferInstanceAs (Decidable (_ ∧ _))

theorem isSign_of_ofChar? {c : Char} {kind : Kind}
    (h : Kind.ofChar? c = some kind) : IsSign c := by
  unfold Kind.ofChar? at h
  split at h <;> cases h <;> decide +kernel

theorem isSign_of_ofPair? {c d : Char} {kind : Kind}
    (h : Kind.ofPair? c d = some kind) : IsSign c := by
  unfold Kind.ofPair? at h
  split at h <;> cases h <;> decide +kernel

theorem isWhiteSpace_eq_false_of_beginsWord {c : Char}
    (h : beginsWord c = true) : Text.isWhiteSpace c = false := by
  rw [beginsWord, Bool.or_eq_true, decide_eq_true_eq] at h
  obtain hLetter | rfl := h
  · exact Text.isWhiteSpace_eq_false_of_isAlphabetic hLetter
  · decide +kernel

theorem beginsWord_eq_false_of_isDigit {c : Char} (h : c.isDigit = true) :
    beginsWord c = false := by
  rw [beginsWord, (Text.eq_false_of_isDigit h).2, Bool.false_or,
    decide_eq_false_iff_not]
  rintro rfl
  cases h

/-! ### White space behind a token -/

theorem continuesWord_eq_false_of_isWhiteSpace {c : Char}
    (h : Text.isWhiteSpace c = true) : continuesWord c = false := by
  rw [← Bool.not_eq_true]
  intro hWord
  have hNotBlank : Text.isWhiteSpace c = false := by
    rw [continuesWord, Bool.or_eq_true, Bool.or_eq_true,
      decide_eq_true_eq] at hWord
    obtain (hLetter | hNumber) | rfl := hWord
    · exact Text.isWhiteSpace_eq_false_of_isAlphabetic hLetter
    · exact Text.isWhiteSpace_eq_false_of_isNumeric hNumber
    · decide +kernel
  rw [h] at hNotBlank
  cases hNotBlank

/-- No token but a line comment goes on with white space. -/
theorem goesOn_eq_false_of_isWhiteSpace {kind : Kind} {c : Char}
    (hKind : kind ≠ .lineComment) (h : Text.isWhiteSpace c = true) :
    goesOn kind c = false := by
  have hWord := continuesWord_eq_false_of_isWhiteSpace h
  have hDigit : c.isDigit = false := by
    rw [← Bool.not_eq_true]
    intro hDigit
    rw [(Text.eq_false_of_isDigit hDigit).1] at h
    cases h
  have hNe {d : Char} (hSign : Text.isWhiteSpace d = false) :
      (c == d) = false := by
    rw [beq_eq_false_iff_ne]
    rintro rfl
    rw [hSign] at h
    cases h
  have hEqual := hNe (d := '=') (by decide)
  have hSlash := hNe (d := '/') (by decide)
  have hStar := hNe (d := '*') (by decide)
  have hPoint := hNe (d := '.') (by decide)
  cases kind with
  | lineComment => exact absurd rfl hKind
  | _ => simp [goesOn, hWord, hDigit, hEqual, hSlash, hStar, hPoint]

/-- With a newline not even a line comment goes on. -/
theorem goesOn_newline (kind : Kind) : goesOn kind '\n' = false := by
  by_cases hKind : kind = .lineComment
  · subst hKind
    rfl
  · exact goesOn_eq_false_of_isWhiteSpace hKind (by decide)

theorem ofPair?_eq_none_of_isWhiteSpace (c : Char) {d : Char}
    (h : Text.isWhiteSpace d = true) : Kind.ofPair? c d = none := by
  unfold Kind.ofPair?
  split
  case h_11 => rfl
  all_goals exact absurd h (by decide)

/-! ## What follows from the form -/

section NotNext

variable {inClass : Char → Bool} {run rest : List Char}

/-- A run of a class that does not go on is what is taken from a text. -/
theorem takeWhile_append_of_notNext (hRun : ∀ c ∈ run, inClass c = true)
    (hNext : NotNext inClass rest) : (run ++ rest).takeWhile inClass = run := by
  have hStop : rest.takeWhile inClass = [] := by
    cases rest with
    | nil => rfl
    | cons c rest => simp [hNext c rfl]
  rw [List.takeWhile_append_of_pos hRun, hStop, List.append_nil]

/-- What is left behind it is the rest. -/
theorem dropWhile_append_of_notNext (hRun : ∀ c ∈ run, inClass c = true)
    (hNext : NotNext inClass rest) :
    (run ++ rest).dropWhile inClass = rest := by
  have hSplit :=
    List.takeWhile_append_dropWhile (p := inClass) (l := run ++ rest)
  rw [takeWhile_append_of_notNext hRun hNext] at hSplit
  exact List.append_cancel_left hSplit

end NotNext

theorem bne_of_not_mem {d : Char} {text : List Char} (h : d ∉ text) :
    ∀ c ∈ text, (c != d) = true := by
  intro c hMem
  rw [bne_iff_ne]
  rintro rfl
  exact h hMem

namespace Piece

/-- The text is no single character that would make an operator with the
one behind it. -/
def NoPair (text rest : List Char) : Prop :=
  ∀ c, text = [c] → ∀ d ∈ rest.head?, Kind.ofPair? c d = none

/-- What a piece must look like, and `rest` behind it, for the piece to be
the first one of the text that both make up. -/
def IsFirst (rest : List Char) : Piece → Prop
  | blank c => Text.isWhiteSpace c = true
  | token kind text =>
    kind ≠ .string ∧ HasForm kind (String.ofList text) ∧
      NotNext (goesOn kind) rest ∧ NoPair text rest
  | quoted text => '"' ∉ text
  | openString text => '"' ∉ text ∧ rest = []
  | openComment text => ¬['*', '/'] <:+: text ∧ rest = []

/-- The piece is the first one of the text that it makes up with `rest`,
which is left behind it. -/
def Leads (rest : List Char) (piece : Piece) : Prop :=
  ∃ c text, piece.raw ++ rest = c :: text ∧ first c text = (piece, rest)

variable {c : Char} {text rest : List Char}

/-! ### Words and numbers -/

theorem leads_blank (h : Text.isWhiteSpace c = true) : (blank c).Leads rest :=
  ⟨c, rest, rfl, if_pos h⟩

theorem leads_word (hWord : IsWord text) (hNext : NotNext continuesWord rest) :
    (token (wordKind text) text).Leads rest := by
  obtain ⟨c, run, rfl, hBegins, hRun⟩ := hWord
  have hBlank := isWhiteSpace_eq_false_of_beginsWord hBegins
  have hFirst : first c (run ++ rest) = word c (run ++ rest) := by
    simp [first, hBlank, hBegins]
  refine ⟨c, run ++ rest, rfl, ?_⟩
  rw [hFirst, word, takeWhile_append_of_notNext hRun hNext,
    dropWhile_append_of_notNext hRun hNext]

theorem first_of_isDigit (h : c.isDigit = true) :
    first c text = number c text := by
  have hBlank := (Text.eq_false_of_isDigit h).1
  have hWord := beginsWord_eq_false_of_isDigit h
  simp [first, hBlank, hWord, h]

theorem leads_integer (hNe : text ≠ []) (hDigits : IsDigits text)
    (hNext : NotNext (goesOn .integer) rest) :
    (token .integer text).Leads rest := by
  obtain ⟨c, run, rfl⟩ := List.exists_cons_of_ne_nil hNe
  obtain ⟨hDigit, hRun⟩ := List.forall_mem_cons.1 hDigits
  have hNotDigit : NotNext Char.isDigit rest := fun d hHead =>
    (Bool.or_eq_false_iff.1 (hNext d hHead)).1
  refine ⟨c, run ++ rest, rfl, ?_⟩
  rw [first_of_isDigit hDigit, number,
    takeWhile_append_of_notNext hRun hNotDigit,
    dropWhile_append_of_notNext hRun hNotDigit]
  split
  · next behind => cases hNext '.' rfl
  · rfl

theorem leads_real (hReal : IsReal text)
    (hNext : NotNext Char.isDigit rest) : (token .real text).Leads rest := by
  obtain ⟨whole, fraction, rfl, hNe, hWhole, hFraction⟩ := hReal
  obtain ⟨c, run, rfl⟩ := List.exists_cons_of_ne_nil hNe
  obtain ⟨hDigit, hRun⟩ := List.forall_mem_cons.1 hWhole
  have hPoint : NotNext Char.isDigit ('.' :: (fraction ++ rest)) :=
    notNext_cons rfl _
  refine ⟨c, run ++ '.' :: (fraction ++ rest), by simp [raw], ?_⟩
  rw [first_of_isDigit hDigit, number,
    takeWhile_append_of_notNext hRun hPoint,
    dropWhile_append_of_notNext hRun hPoint]
  show (token .real (_ ++ '.' :: (fraction ++ rest).takeWhile Char.isDigit),
    (fraction ++ rest).dropWhile Char.isDigit) = _
  rw [takeWhile_append_of_notNext hFraction hNext,
    dropWhile_append_of_notNext hFraction hNext]

/-! ### Strings -/

theorem first_quote (text : List Char) : first '"' text = string text := by
  have hBlank : Text.isWhiteSpace '"' = false := by decide +kernel
  have hWord : beginsWord '"' = false := by decide +kernel
  simp [first, hBlank, hWord]

theorem leads_quoted (h : '"' ∉ text) : (quoted text).Leads rest := by
  have hText := bne_of_not_mem h
  have hQuote : NotNext (· != '"') ('"' :: rest) :=
    notNext_cons rfl rest
  refine ⟨'"', text ++ '"' :: rest, by simp [raw], ?_⟩
  rw [first_quote, string, takeWhile_append_of_notNext hText hQuote,
    dropWhile_append_of_notNext hText hQuote]

theorem leads_openString (h : '"' ∉ text) : (openString text).Leads [] := by
  have hNone : text.dropWhile (· != '"') = [] :=
    List.dropWhile_eq_nil_iff.2 (bne_of_not_mem h)
  refine ⟨'"', text, by simp [raw], ?_⟩
  rw [first_quote, string, hNone]

/-! ### Comments -/

theorem isSign_slash : IsSign '/' := isSign_of_ofChar? rfl

theorem first_lineComment (text : List Char) :
    first '/' ('/' :: text) = lineComment text := by
  obtain ⟨hBlank, hWord, hDigit, -⟩ := isSign_slash
  simp [first, hBlank, hWord, hDigit]

theorem first_blockComment (text : List Char) :
    first '/' ('*' :: text) = blockComment text := by
  obtain ⟨hBlank, hWord, hDigit, -⟩ := isSign_slash
  simp [first, hBlank, hWord, hDigit]

theorem leads_lineComment (h : '\n' ∉ text) (hNext : NotNext (· != '\n') rest) :
    (token .lineComment ('/' :: '/' :: text)).Leads rest := by
  have hText := bne_of_not_mem h
  refine ⟨'/', '/' :: (text ++ rest), rfl, ?_⟩
  rw [first_lineComment, lineComment, takeWhile_append_of_notNext hText hNext,
    dropWhile_append_of_notNext hText hNext]

/-- Two comments that begin one text end at the same place. -/
theorem eq_of_closesAtEnd {first second restFirst restSecond : List Char}
    (hFirst : ClosesAtEnd first) (hSecond : ClosesAtEnd second)
    (h : first ++ restFirst = second ++ restSecond) : first = second := by
  -- the longer one has the closing sign of the shorter one in it
  have hShorter {a b extra : List Char} (ha : ClosesAtEnd a)
      (hb : ClosesAtEnd b) (hText : b = a ++ extra) : a = b := by
    obtain ⟨⟨front, rfl⟩, -⟩ := ha
    have hExtra := hb.2 front extra (by simp [hText])
    rw [hText, hExtra, List.append_nil]
  obtain ⟨extra, hText, -⟩ | ⟨extra, hText, -⟩ := List.append_eq_append_iff.1 h
  · exact hShorter hFirst hSecond hText
  · exact (hShorter hSecond hFirst hText).symm

theorem splitClosed?_of_closesAtEnd (h : ClosesAtEnd text) :
    splitClosed? [] (text ++ rest) = some (text, rest) := by
  cases hSplit : splitClosed? [] (text ++ rest) with
  | none =>
      have hInfix := h.1.isInfix.trans (List.prefix_append text rest).isInfix
      exact absurd hInfix (splitClosed?_eq_none hSplit)
  | some split =>
      obtain ⟨body, behind⟩ := split
      obtain ⟨passed, rfl, hText, hPassed⟩ := splitClosed?_eq_some hSplit
      obtain rfl := eq_of_closesAtEnd h hPassed hText
      rw [List.append_cancel_left hText]

theorem closesAtEnd_iff :
    ClosesAtEnd text ↔ splitClosed? [] text = some (text, []) := by
  constructor
  · intro h
    have hSplit : splitClosed? [] (text ++ []) = some (text, []) :=
      splitClosed?_of_closesAtEnd h
    rwa [List.append_nil] at hSplit
  · intro h
    obtain ⟨passed, rfl, -, hPassed⟩ := splitClosed?_eq_some h
    exact hPassed

instance (text : List Char) : Decidable (ClosesAtEnd text) :=
  decidable_of_iff _ closesAtEnd_iff.symm

theorem leads_blockComment (h : ClosesAtEnd text) :
    (token .blockComment ('/' :: '*' :: text)).Leads rest := by
  refine ⟨'/', '*' :: (text ++ rest), rfl, ?_⟩
  rw [first_blockComment, blockComment, splitClosed?_of_closesAtEnd h]

theorem leads_openComment (h : ¬['*', '/'] <:+: text) :
    (openComment text).Leads [] := by
  refine ⟨'/', '*' :: text, by simp [raw], ?_⟩
  rw [first_blockComment, blockComment]
  split
  · next body behind hSplit =>
    obtain ⟨passed, -, hText, hPassed⟩ := splitClosed?_eq_some hSplit
    have hInfix := hPassed.1.isInfix.trans
      (List.prefix_append passed behind).isInfix
    exact absurd (hText ▸ hInfix) h
  · rfl

/-! ### Operators -/

theorem first_of_isSign (h : IsSign c)
    (hComment : c = '/' → ∀ d ∈ text.head?, d ≠ '/' ∧ d ≠ '*') :
    first c text = symbol c text := by
  obtain ⟨hBlank, hWord, hDigit, hQuote⟩ := h
  have hRule := dispatched_first c text
  generalize first c text = cutOff at hRule ⊢
  cases hRule with
  | blank h => exact absurd h (Bool.eq_false_iff.1 hBlank)
  | word h => exact absurd h (Bool.eq_false_iff.1 hWord)
  | number h => exact absurd h (Bool.eq_false_iff.1 hDigit)
  | string h => exact absurd h hQuote
  | lineComment h hText =>
      subst hText
      exact absurd rfl (hComment h '/' rfl).1
  | blockComment h hText =>
      subst hText
      exact absurd rfl (hComment h '*' rfl).2
  | symbol => rfl

theorem leads_pair {d : Char} {kind : Kind} (h : Kind.ofPair? c d = some kind) :
    (token kind [c, d]).Leads rest := by
  refine ⟨c, d :: rest, rfl, ?_⟩
  rw [first_of_isSign (isSign_of_ofPair? h), symbol, h]
  rintro rfl _ ⟨⟩
  constructor
  · rintro rfl
    cases h
  · rintro rfl
    cases h

theorem leads_single (hSign : IsSign c)
    (hPair : ∀ d ∈ rest.head?, Kind.ofPair? c d = none)
    (hComment : c = '/' → ∀ d ∈ rest.head?, d ≠ '/' ∧ d ≠ '*') :
    (single c).Leads rest := by
  refine ⟨c, rest, rfl, ?_⟩
  rw [first_of_isSign hSign hComment]
  cases rest with
  | nil => rfl
  | cons d rest => rw [symbol, hPair d rfl]

theorem leads_ofChar? {kind : Kind} (h : Kind.ofChar? c = some kind)
    (hNext : NotNext (goesOn kind) rest) (hPair : NoPair [c] rest) :
    (token kind [c]).Leads rest := by
  have hSingle : single c = token kind [c] := by rw [single, h]; rfl
  rw [← hSingle]
  refine leads_single (isSign_of_ofChar? h) (hPair c rfl) ?_
  rintro rfl d hHead
  obtain rfl := Option.some.inj h
  have hStop := hNext d hHead
  constructor
  · rintro rfl
    cases hStop
  · rintro rfl
    cases hStop

theorem leads_unknown (h : IsStray c) (hPair : NoPair [c] rest) :
    (token .unknown [c]).Leads rest := by
  obtain ⟨hBlank, hWord, hDigit, hQuote, hNone⟩ := h
  have hSingle : single c = token .unknown [c] := by rw [single, hNone]; rfl
  rw [← hSingle]
  refine leads_single ⟨hBlank, hWord, hDigit, hQuote⟩ (hPair c rfl) ?_
  rintro rfl
  cases hNone

/-! ### One spelling -/

/-- Reserved words and truth values are words. -/
theorem isWord_of_keyword? {word : String} {kind : Kind}
    (h : Kind.keyword? word = some kind) : IsWord word.toList := by
  unfold Kind.keyword? at h
  split at h <;> cases h
  all_goals exact ⟨_, _, rfl, by decide, List.all_eq_true.1 (by decide)⟩

theorem leads_keyword {kind : Kind}
    (h : Kind.keyword? (String.ofList text) = some kind)
    (hNext : NotNext (goesOn kind) rest) : (token kind text).Leads rest := by
  have hWord := isWord_of_keyword? h
  have hKind : wordKind text = kind := by rw [wordKind, h]; rfl
  rw [String.toList_ofList] at hWord
  rw [(hasForm_keyword h).2] at hNext
  rw [← hKind]
  exact leads_word hWord hNext

/-- A kind with one spelling is that of a reserved word, or of an operator
or a punctuation mark of one character or of two. -/
theorem spelling?_cases {kind : Kind} {word : String}
    (h : kind.spelling? = some word) :
    Kind.keyword? word = some kind ∨
      (∃ c, word = String.ofList [c] ∧ Kind.ofChar? c = some kind) ∨
      ∃ c d, word = String.ofList [c, d] ∧ Kind.ofPair? c d = some kind := by
  cases kind <;> cases h
  case long | double | ifWord | thenWord | elseWord | whileWord | breakWord
      | read | write =>
    exact .inl rfl
  case greaterEqual | lessEqual | equal | notEqual | and | or | plusAssign
      | minusAssign | timesAssign | divideAssign =>
    exact .inr (.inr ⟨_, _, rfl, rfl⟩)
  all_goals exact .inr (.inl ⟨_, rfl, rfl⟩)

theorem leads_spelling? {kind : Kind}
    (h : kind.spelling? = some (String.ofList text))
    (hNext : NotNext (goesOn kind) rest) (hPair : NoPair text rest) :
    (token kind text).Leads rest := by
  obtain hWord | ⟨c, hText, hKind⟩ | ⟨c, d, hText, hKind⟩ := spelling?_cases h
  · exact leads_keyword hWord hNext
  · obtain rfl := String.ofList_injective hText
    exact leads_ofChar? hKind hNext hPair
  · obtain rfl := String.ofList_injective hText
    exact leads_pair hKind

/-! ### All pieces -/

/-- A token of the form of its kind is the first piece, if what follows does
not go on with it. -/
theorem leads_token {kind : Kind} (hString : kind ≠ .string)
    (hForm : HasForm kind (String.ofList text))
    (hNext : NotNext (goesOn kind) rest) (hPair : NoPair text rest) :
    (token kind text).Leads rest := by
  cases kind with
  | identifier =>
      obtain ⟨hWord, hNone⟩ := hForm
      have hKind : wordKind text = .identifier := by rw [wordKind, hNone]; rfl
      rw [String.toList_ofList] at hWord
      rw [← hKind]
      exact leads_word hWord hNext
  | boolean =>
      have hKind : Kind.keyword? (String.ofList text) = some .boolean := by
        obtain hText | hText := hForm <;> rw [hText] <;> rfl
      exact leads_keyword hKind hNext
  | integer =>
      obtain ⟨hNe, hDigits⟩ := hForm
      rw [String.toList_ofList] at hNe hDigits
      exact leads_integer hNe hDigits hNext
  | real =>
      have hReal : IsReal (String.ofList text).toList := hForm
      rw [String.toList_ofList] at hReal
      exact leads_real hReal hNext
  | string => exact absurd rfl hString
  | lineComment =>
      obtain ⟨⟨body, hText⟩, hLine⟩ := hForm
      rw [String.toList_ofList] at hText hLine
      subst hText
      refine leads_lineComment ?_ hNext
      exact fun hMem => hLine (List.mem_append_right _ hMem)
  | blockComment =>
      obtain ⟨body, hText, hCloses⟩ := hForm
      rw [String.toList_ofList] at hText
      subst hText
      exact leads_blockComment hCloses
  | unknown =>
      obtain ⟨c, hText, hStray⟩ := hForm
      rw [String.toList_ofList] at hText
      subst hText
      exact leads_unknown hStray hPair
  | _ => exact leads_spelling? hForm hNext hPair

/-- No single character is cut off that makes an operator with the next. -/
theorem noPair_first {kind : Kind} {lexeme : List Char}
    (hFirst : first c text = (token kind lexeme, rest)) :
    NoPair lexeme rest := by
  have hText := raw_first_append c text
  rw [hFirst] at hText
  rintro c' rfl d hHead
  obtain ⟨rfl, rfl⟩ := List.cons.inj hText
  obtain ⟨behind, rfl⟩ := List.head?_eq_some_iff.1 hHead
  cases hPair : Kind.ofPair? c' d with
  | none => rfl
  | some pair =>
      -- the rule for operators would have cut off both characters
      have hLeads : (token pair [c', d]).Leads behind := leads_pair hPair
      obtain ⟨_, _, hCons, hBoth⟩ := hLeads
      obtain ⟨rfl, rfl⟩ := List.cons.inj hCons
      have hSame := hFirst.symm.trans hBoth
      cases hSame

theorem isFirst_first (c : Char) (text : List Char) :
    (first c text).1.IsFirst (first c text).2 := by
  have hFits := fits_first c text
  have hCut := wellCut_first c text
  rcases hFirst : first c text with ⟨piece, rest⟩
  rw [hFirst] at hFits hCut
  cases piece with
  | blank | openString | openComment => exact hCut
  | quoted => exact hFits
  | token kind lexeme =>
      exact ⟨hCut.1, hFits.1, hFits.2, noPair_first hFirst⟩

/-- **The form of a piece decides how a text is cut.** A piece is the first
one of the text that it makes up with `rest` exactly when it looks like one
and `rest` does not go on with it. -/
theorem leads_iff {piece : Piece} : piece.Leads rest ↔ piece.IsFirst rest := by
  constructor
  · rintro ⟨c, text, -, hFirst⟩
    have h := isFirst_first c text
    rw [hFirst] at h
    exact h
  · intro h
    cases piece with
    | blank c => exact leads_blank h
    | token kind text => exact leads_token h.1 h.2.1 h.2.2.1 h.2.2.2
    | quoted text => exact leads_quoted h
    | openString text =>
        obtain ⟨hText, rfl⟩ := h
        exact leads_openString hText
    | openComment text =>
        obtain ⟨hText, rfl⟩ := h
        exact leads_openComment hText

end Piece

/-- A text that begins with a piece is cut behind it. -/
theorem cut_append {piece : Piece} {rest : List Char}
    (h : piece.IsFirst rest) : cut (piece.raw ++ rest) = piece :: cut rest := by
  obtain ⟨c, text, hText, hFirst⟩ := Piece.leads_iff.2 h
  rw [hText, cut_cons, hFirst]

/-- White space is cut off one by one. -/
theorem cut_blank {c : Char} (h : Text.isWhiteSpace c = true)
    (rest : List Char) : cut (c :: rest) = .blank c :: cut rest :=
  @cut_append (.blank c) rest h

end Source

end ImpFront
