import Mathlib.Data.List.TakeWhile
import ImpFront.Proofs.Source.Sites

/-!
# The form of a token, and what cannot stand behind it

A kind says what its tokens look like: reserved words and operators have
one spelling each, words, constants and comments belong to a class of
texts. It also says which characters would have made the token longer, had
they stood behind it, and so never do. Both are tables over the kinds,
`HasForm` and `goesOn`, that know nothing of how a text is scanned.

Each scanning rule keeps to the tables, and it is enough to see this for
the first piece of a text: the rules that come before another one in the
order of `Piece.first` are the reason why the later one never meets a
character that they would have taken.

## Main results

* `fits_first` — the first piece of a text has the form of its kind, and
  the rest does not go on with it.
* `scan_longest_match` — so has every token of a source.
-/

namespace ImpFront

namespace Token.Kind

/-- How the tokens of a kind are spelled, if there is one way only. -/
def spelling? : Kind → Option String
  | long => some "long"
  | double => some "double"
  | ifWord => some "if"
  | thenWord => some "then"
  | elseWord => some "else"
  | whileWord => some "while"
  | breakWord => some "break"
  | read => some "read"
  | write => some "write"
  | plus => some "+"
  | minus => some "-"
  | times => some "*"
  | divide => some "/"
  | greater => some ">"
  | less => some "<"
  | greaterEqual => some ">="
  | lessEqual => some "<="
  | equal => some "=="
  | notEqual => some "!="
  | and => some "&&"
  | or => some "||"
  | not => some "!"
  | assign => some "="
  | plusAssign => some "+="
  | minusAssign => some "-="
  | timesAssign => some "*="
  | divideAssign => some "/="
  | leftParen => some "("
  | rightParen => some ")"
  | leftBrace => some "\x7b"
  | rightBrace => some "\x7d"
  | semicolon => some ";"
  | comma => some ","
  | identifier | integer | real | string | boolean | lineComment
  | blockComment | endOfInput | unknown => none

end Token.Kind

namespace Source

open Token (Kind)
open Piece (beginsWord continuesWord)

/-! ## Forms -/

/-- A letter or an underscore, and then letters, numbers and
underscores. -/
def IsWord (text : List Char) : Prop :=
  ∃ c rest, text = c :: rest ∧ beginsWord c = true ∧
    ∀ d ∈ rest, continuesWord d = true

/-- Digits, or nothing. -/
def IsDigits (text : List Char) : Prop := ∀ c ∈ text, c.isDigit = true

/-- Digits, a point, and behind it digits or nothing. -/
def IsReal (text : List Char) : Prop :=
  ∃ whole fraction, text = whole ++ '.' :: fraction ∧ whole ≠ [] ∧
    IsDigits whole ∧ IsDigits fraction

/-- What stands behind the opening sign of a comment, if the comment ends
with the first closing sign there is. -/
def ClosesAtEnd (body : List Char) : Prop :=
  ['*', '/'] <:+ body ∧
    ∀ front back, body = front ++ '*' :: '/' :: back → back = []

/-- A character that is no operator by itself, and with which neither white
space nor a word, a number or a string begins. -/
def IsStray (c : Char) : Prop :=
  Text.isWhiteSpace c = false ∧ beginsWord c = false ∧ c.isDigit = false ∧
    c ≠ '"' ∧ Kind.ofChar? c = none

/-- What a token of a kind looks like. -/
def HasForm (kind : Kind) (lexeme : String) : Prop :=
  match kind with
  | .identifier => IsWord lexeme.toList ∧ Kind.keyword? lexeme = none
  | .boolean => lexeme = "true" ∨ lexeme = "false"
  | .integer => lexeme.toList ≠ [] ∧ IsDigits lexeme.toList
  | .real => IsReal lexeme.toList
  | .string => '"' ∉ lexeme.toList
  | .lineComment =>
    ['/', '/'] <+: lexeme.toList ∧ '\n' ∉ lexeme.toList
  | .blockComment =>
    ∃ body, lexeme.toList = '/' :: '*' :: body ∧ ClosesAtEnd body
  | .unknown => ∃ c, lexeme.toList = [c] ∧ IsStray c
  | kind => kind.spelling? = some lexeme

/-- Would the character behind a token of the kind have belonged to it, or
to the longer token that begins with it? -/
def goesOn : Kind → Char → Bool
  | .identifier, c | .boolean, c | .long, c | .double, c | .ifWord, c
  | .thenWord, c | .elseWord, c | .whileWord, c | .breakWord, c | .read, c
  | .write, c => continuesWord c
  | .integer, c => c.isDigit || c == '.'
  | .real, c => c.isDigit
  | .lineComment, c => c != '\n'
  | .plus, c | .minus, c | .times, c | .greater, c | .less, c | .assign, c
  | .not, c => c == '='
  | .divide, c => c == '=' || c == '/' || c == '*'
  | _, _ => false

/-- The text does not begin with a character of the class. -/
def NotNext (inClass : Char → Bool) (text : List Char) : Prop :=
  ∀ c ∈ text.head?, inClass c = false

theorem notNext_cons {inClass : Char → Bool} {c : Char}
    (h : inClass c = false) (rest : List Char) :
    NotNext inClass (c :: rest) := by
  rintro _ ⟨⟩
  exact h

theorem notNext_dropWhile (inClass : Char → Bool) (text : List Char) :
    NotNext inClass (text.dropWhile inClass) := by
  intro c hHead
  have hNot := List.head?_dropWhile_not inClass text
  rw [hHead] at hNot
  exact hNot

/-! ## The scanning rules -/

namespace Piece

/-- A piece that is a token has the form of its kind, and what stands
behind it does not go on with it. -/
def Fits (rest : List Char) : Piece → Prop
  | token kind text =>
    HasForm kind (String.ofList text) ∧ NotNext (goesOn kind) rest
  | quoted text => '"' ∉ text
  | _ => True

theorem isDigits_takeWhile (text : List Char) :
    IsDigits (text.takeWhile Char.isDigit) :=
  fun _ hMem => List.mem_takeWhile_imp hMem

/-- The words of the table have kinds that are spelled like them. -/
theorem hasForm_keyword {word : String} {kind : Kind}
    (h : Kind.keyword? word = some kind) :
    HasForm kind word ∧ goesOn kind = continuesWord := by
  unfold Kind.keyword? at h
  split at h <;> cases h
  all_goals
    refine ⟨?_, rfl⟩
    simp [HasForm, Kind.spelling?]

theorem fits_word {c : Char} (hBegins : beginsWord c = true)
    (text : List Char) : (word c text).1.Fits (word c text).2 := by
  show HasForm (wordKind _) _ ∧ NotNext (goesOn (wordKind _)) _
  have hRest := notNext_dropWhile continuesWord text
  have hWord : IsWord (c :: text.takeWhile continuesWord) :=
    ⟨c, _, rfl, hBegins, fun _ hMem => List.mem_takeWhile_imp hMem⟩
  generalize c :: text.takeWhile continuesWord = run at hWord
  rw [wordKind]
  cases hKind : Kind.keyword? (String.ofList run) with
  | none =>
      refine ⟨⟨?_, hKind⟩, hRest⟩
      rw [String.toList_ofList]
      exact hWord
  | some kind =>
      obtain ⟨hForm, hGoesOn⟩ := hasForm_keyword hKind
      rw [Option.getD_some, hGoesOn]
      exact ⟨hForm, hRest⟩

theorem fits_number {c : Char} (hDigit : c.isDigit = true)
    (text : List Char) : (number c text).1.Fits (number c text).2 := by
  have hWhole : IsDigits (c :: text.takeWhile Char.isDigit) :=
    List.forall_mem_cons.2 ⟨hDigit, isDigits_takeWhile text⟩
  have hNext := notNext_dropWhile Char.isDigit text
  rw [number]
  split
  · next rest hPoint =>
    refine ⟨?_, notNext_dropWhile Char.isDigit rest⟩
    show IsReal (String.ofList _).toList
    rw [String.toList_ofList]
    exact ⟨_, _, rfl, List.cons_ne_nil _ _, hWhole, isDigits_takeWhile rest⟩
  · next rest hNoPoint =>
    constructor
    · show (String.ofList _).toList ≠ [] ∧ IsDigits (String.ofList _).toList
      rw [String.toList_ofList]
      exact ⟨List.cons_ne_nil _ _, hWhole⟩
    · intro d hHead
      have hNotDigit := hNext d hHead
      have hNotPoint : d ≠ '.' := by
        rintro rfl
        obtain ⟨rest', hRest⟩ := List.head?_eq_some_iff.1 hHead
        exact hNoPoint rest' hRest
      simp [goesOn, hNotDigit, hNotPoint]

theorem fits_string (text : List Char) :
    (string text).1.Fits (string text).2 := by
  rw [string]
  split
  · exact trivial
  · show '"' ∉ text.takeWhile (· != '"')
    intro hMem
    have hNotQuote := List.mem_takeWhile_imp hMem
    simp at hNotQuote

theorem fits_lineComment (text : List Char) :
    (lineComment text).1.Fits (lineComment text).2 := by
  refine ⟨?_, notNext_dropWhile (· != '\n') text⟩
  show _ <+: (String.ofList _).toList ∧ '\n' ∉ (String.ofList _).toList
  rw [String.toList_ofList]
  refine ⟨⟨_, rfl⟩, ?_⟩
  have hLine : '\n' ∉ text.takeWhile (· != '\n') := fun hMem => by
    simpa using List.mem_takeWhile_imp hMem
  simpa using hLine

/-- What is split off goes up to the first closing sign. -/
theorem splitClosed?_eq_some {seen text body rest : List Char}
    (h : splitClosed? seen text = some (body, rest)) :
    ∃ passed, body = seen.reverse ++ passed ∧ text = passed ++ rest ∧
      ClosesAtEnd passed := by
  fun_induction splitClosed? seen text with
  | case1 seen rest' =>
      obtain ⟨rfl, rfl⟩ : (_ ∧ _) := by simpa using h
      refine ⟨['*', '/'], by simp, rfl, List.suffix_rfl, ?_⟩
      intro front back hSplit
      have hLen := congrArg List.length hSplit
      simp only [List.length_cons, List.length_append, List.length_nil] at hLen
      exact List.eq_nil_of_length_eq_zero (by omega)
  | case2 seen c text hNotClosed ih =>
      obtain ⟨passed, rfl, rfl, hSuffix, hFirst⟩ := ih h
      refine ⟨c :: passed, by simp, rfl, hSuffix.trans (List.suffix_cons c _),
        ?_⟩
      intro front back hSplit
      cases front with
      | nil =>
          -- the sign would stand where the text was not split
          obtain ⟨rfl, rfl⟩ := List.cons.inj hSplit
          exact absurd rfl (hNotClosed _ rfl)
      | cons d front =>
          obtain ⟨-, hSplit⟩ := List.cons.inj hSplit
          exact hFirst front back hSplit
  | case3 => cases h

theorem fits_blockComment (text : List Char) :
    (blockComment text).1.Fits (blockComment text).2 := by
  rw [blockComment]
  split
  · next body rest hSplit =>
    obtain ⟨passed, rfl, -, hCloses⟩ := splitClosed?_eq_some hSplit
    refine ⟨⟨_, ?_, hCloses⟩, fun _ _ => rfl⟩
    rw [String.toList_ofList]
  · exact trivial

/-! ### Operators -/

/-- An operator of one character would go on with a second one that makes
an operator with it, or a comment. -/
theorem isSome_ofPair?_of_goesOn {c d : Char} {kind : Kind}
    (hKind : Kind.ofChar? c = some kind) (hGoesOn : goesOn kind d = true) :
    (Kind.ofPair? c d).isSome = true ∨ c = '/' ∧ (d = '/' ∨ d = '*') := by
  unfold Kind.ofChar? at hKind
  split at hKind <;> cases hKind <;>
    simp only [goesOn, Bool.or_eq_true, beq_iff_eq, Bool.false_eq_true]
      at hGoesOn
  case h_4 =>
    obtain (rfl | hSlash) | hStar := hGoesOn
    · exact .inl rfl
    · exact .inr ⟨rfl, .inl hSlash⟩
    · exact .inr ⟨rfl, .inr hStar⟩
  all_goals
    subst hGoesOn
    exact .inl rfl

theorem hasForm_ofChar? {c : Char} {kind : Kind}
    (h : Kind.ofChar? c = some kind) : HasForm kind (String.ofList [c]) := by
  unfold Kind.ofChar? at h
  split at h <;> cases h <;> rfl

theorem hasForm_ofPair? {c d : Char} {kind : Kind}
    (h : Kind.ofPair? c d = some kind) :
    HasForm kind (String.ofList [c, d]) ∧ goesOn kind = fun _ => false := by
  unfold Kind.ofPair? at h
  split at h <;> cases h <;> exact ⟨rfl, rfl⟩

section Symbol

variable {c : Char} {text : List Char}

theorem fits_single
    (hStray : Kind.ofChar? c = none → IsStray c)
    (hPair : ∀ d ∈ text.head?, Kind.ofPair? c d = none)
    (hComment : c = '/' → ∀ d ∈ text.head?, d ≠ '/' ∧ d ≠ '*') :
    (single c).Fits text := by
  show HasForm ((Kind.ofChar? c).getD .unknown) _ ∧
    NotNext (goesOn ((Kind.ofChar? c).getD .unknown)) text
  cases hKind : Kind.ofChar? c with
  | none =>
      refine ⟨⟨c, ?_, hStray hKind⟩, fun _ _ => rfl⟩
      rw [String.toList_ofList]
  | some kind =>
      refine ⟨hasForm_ofChar? hKind, ?_⟩
      intro d hHead
      rw [← Bool.not_eq_true]
      intro hGoesOn
      obtain hSome | ⟨hSlash, hSign⟩ := isSome_ofPair?_of_goesOn hKind hGoesOn
      · rw [hPair d hHead] at hSome
        cases hSome
      · have hNot := hComment hSlash d hHead
        exact hSign.elim hNot.1 hNot.2

theorem fits_symbol
    (hStray : Kind.ofChar? c = none → IsStray c)
    (hComment : c = '/' → ∀ d ∈ text.head?, d ≠ '/' ∧ d ≠ '*') :
    (symbol c text).1.Fits (symbol c text).2 := by
  unfold symbol
  split
  · refine fits_single hStray ?_ ?_
    · intro d hHead
      cases hHead
    · intro _ d hHead
      cases hHead
  · next d rest =>
    split
    · next kind hKind =>
      obtain ⟨hForm, hGoesOn⟩ := hasForm_ofPair? hKind
      refine ⟨hForm, ?_⟩
      rw [hGoesOn]
      exact fun _ _ => rfl
    · next hNone =>
      refine fits_single hStray ?_ hComment
      intro d' hHead
      cases hHead
      exact hNone

end Symbol

/-- The first piece of a text has the form of its kind, and the rest does
not go on with it. -/
theorem fits_first (c : Char) (text : List Char) :
    (first c text).1.Fits (first c text).2 := by
  have hRule := dispatched_first c text
  generalize first c text = cutOff at hRule ⊢
  cases hRule with
  | blank => exact trivial
  | word h => exact fits_word h text
  | number h => exact fits_number h text
  | string => exact fits_string text
  | lineComment => exact fits_lineComment _
  | blockComment => exact fits_blockComment _
  | symbol hBlank hWord hNumber hString hComment =>
      exact fits_symbol
        (fun hNone => ⟨hBlank, hWord, hNumber, hString, hNone⟩) hComment

end Piece

/-! ## The tokens of a source -/

theorem Site.IsCut.hasForm {site : Site} (h : site.IsCut) :
    HasForm site.token.kind site.token.lexeme ∧
      NotNext (goesOn site.token.kind) site.behind := by
  obtain ⟨c, text, piece, hFirst, -, hToken⟩ := h
  have hFits := Piece.fits_first c text
  rw [hFirst] at hFits
  cases piece with
  | token kind lexeme =>
      rw [← Option.some.inj hToken]
      exact hFits
  | quoted lexeme =>
      rw [← Option.some.inj hToken]
      refine ⟨?_, fun _ _ => rfl⟩
      show '"' ∉ (String.ofList lexeme).toList
      rw [String.toList_ofList]
      exact hFits
  | blank | openString | openComment => cases hToken

/-- **Every token has the form of its kind and is as long as it can be.**
The tokens of a source, the end of the input apart, have their places in
it, and at none of these places does the text go on with a character that
the token, or a longer one, could have had next. -/
theorem scan_longest_match (source : String) :
    ∃ (sites : List Site) (tail : List Char),
      (scan source).tokens = sites.map Site.token ++
        [.atEnd (Position.start.after source.toList)] ∧
      Lays source.toList [] sites tail ∧
      ∀ site ∈ sites, HasForm site.token.kind site.token.lexeme ∧
        NotNext (goesOn site.token.kind) site.behind := by
  obtain ⟨sites, front, tail, hTokens, hLays, hCut, -⟩ := exists_sites source
  exact ⟨sites, tail, hTokens, hLays,
    fun site hMem => (hCut site hMem).hasForm⟩

end Source

end ImpFront
