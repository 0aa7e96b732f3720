import ImpFront.Proofs.Source.Determined

/-!
# Tokens written down are read back

Kinds and lexemes are written one to a line, each as it stands in a source,
and scanned again. What is read is what was written: no lexeme takes
anything from the next line, and each is taken for its own kind.

A newline does not separate tokens by itself, since it may stand inside of
a string or a comment. But no token goes on with a newline that stands
behind it, and no operator is made with one; the rest follows from the form
of each lexeme.

## Main results

* `cut_line` — a line is cut into its piece and the newline.
* `scan_lines` — scanning undoes writing.
-/

namespace ImpFront.Source

open Token (Kind)

/-- The text of a kind and a lexeme, as it stands in a source. -/
def written (entry : Kind × String) : List Char :=
  Token.raw ⟨entry.1, entry.2, .start⟩

/-- Kinds and lexemes, each written on a line. -/
def lines (entries : List (Kind × String)) : List Char :=
  entries.flatMap fun entry => written entry ++ ['\n']

theorem lines_cons (entry : Kind × String) (entries : List (Kind × String)) :
    lines (entry :: entries) = written entry ++ ['\n'] ++ lines entries :=
  List.flatMap_cons

/-- What is kept of a token when its position is forgotten. -/
def entryOf (token : Token) : Kind × String := (token.kind, token.lexeme)

namespace Piece

/-- The piece that a kind and a lexeme are written as. -/
def ofEntry (entry : Kind × String) : Piece :=
  if entry.1 = .string then .quoted entry.2.toList
  else .token entry.1 entry.2.toList

theorem raw_ofEntry (entry : Kind × String) :
    (ofEntry entry).raw = written entry := by
  unfold ofEntry written Token.raw
  split <;> rfl

/-- The piece makes a token of the same kind and lexeme, and no error. -/
theorem token?_ofEntry (entry : Kind × String) (pos : Position) :
    ((ofEntry entry).token? pos).toList.map entryOf = [entry] ∧
      (ofEntry entry).error? pos = none := by
  obtain ⟨kind, lexeme⟩ := entry
  unfold ofEntry
  split
  · next hString =>
    have hKind : kind = .string := hString
    simp [token?, error?, entryOf, hKind]
  · simp [token?, error?, entryOf]

/-- Whatever has the form of its kind comes first in front of a newline. -/
theorem isFirst_ofEntry {entry : Kind × String}
    (h : HasForm entry.1 entry.2) (rest : List Char) :
    (ofEntry entry).IsFirst ('\n' :: rest) := by
  unfold ofEntry
  split
  · next hString =>
    rw [hString] at h
    exact h
  · next hString =>
    refine ⟨hString, ?_, ?_, ?_⟩
    · rw [String.ofList_toList]
      exact h
    · rintro c ⟨⟩
      exact goesOn_newline _
    · rintro c - d ⟨⟩
      exact ofPair?_eq_none_of_isWhiteSpace c (by decide)

end Piece

/-- A line is cut into the piece that was written on it and the newline. -/
theorem cut_line {entry : Kind × String} (h : HasForm entry.1 entry.2)
    (rest : List Char) :
    cut (written entry ++ ['\n'] ++ rest) =
      .ofEntry entry :: .blank '\n' :: cut rest := by
  have hBlank : Text.isWhiteSpace '\n' = true := by decide
  rw [List.append_assoc, ← Piece.raw_ofEntry, List.singleton_append,
    cut_append (Piece.isFirst_ofEntry h rest), cut_blank hBlank]

/-- The lines of a text are read back, wherever it stands. -/
theorem tokensFrom_lines {entries : List (Kind × String)}
    (h : ∀ entry ∈ entries, HasForm entry.1 entry.2) (pos : Position) :
    (tokensFrom pos (cut (lines entries))).map entryOf = entries ∧
      errorsFrom pos (cut (lines entries)) = [] := by
  induction entries generalizing pos with
  | nil => simp [lines]
  | cons entry entries ih =>
      obtain ⟨hEntry, hEntries⟩ := List.forall_mem_cons.1 h
      obtain ⟨hTokens, hErrors⟩ := ih hEntries
        ((pos.after (Piece.ofEntry entry).raw).next '\n')
      obtain ⟨hToken, hError⟩ := Piece.token?_ofEntry entry pos
      rw [lines_cons, cut_line hEntry, tokensFrom_cons, tokensFrom_cons,
        errorsFrom_cons, errorsFrom_cons]
      constructor
      · rw [List.map_append, hToken, List.map_append]
        exact congrArg _ hTokens
      · rw [hError]
        exact hErrors

/-- **Scanning undoes writing.** Kinds and lexemes of which each lexeme has
the form of its kind are read back, without errors, when each is written
on a line. The end of the input has no form: nothing is written for it, and
it comes behind all the others. -/
theorem scan_lines (entries : List (Kind × String))
    (h : ∀ entry ∈ entries, HasForm entry.1 entry.2) :
    (scan (String.ofList (lines entries))).errors = [] ∧
      (scan (String.ofList (lines entries))).tokens.map
          (fun token => (token.kind, token.lexeme)) =
        entries ++ [(.endOfInput, "")] := by
  obtain ⟨hTokens, hErrors⟩ := tokensFrom_lines h .start
  rw [errors_scan, tokens_scan, String.toList_ofList]
  refine ⟨hErrors, ?_⟩
  rw [List.map_append]
  exact congrArg (· ++ _) hTokens

/-- Comment signs in a string and quotes in comments are read back, and two
marks do not make one operator. -/
theorem scan_lines_lookAlikes :
    let source := "\"// a\n/*\"\n// \"b\n/*\n//\"*/\n&\n&\nifx\n5.\n"
    (scan source).errors = [] ∧
      (scan source).tokens.map (fun token => (token.kind, token.lexeme)) =
        [(.string, "// a\n/*"), (.lineComment, "// \"b"),
          (.blockComment, "/*\n//\"*/"), (.unknown, "&"), (.unknown, "&"),
          (.identifier, "ifx"), (.real, "5."), (.endOfInput, "")] := by
  refine scan_lines [(.string, "// a\n/*"), (.lineComment, "// \"b"),
    (.blockComment, "/*\n//\"*/"), (.unknown, "&"), (.unknown, "&"),
    (.identifier, "ifx"), (.real, "5.")] ?_
  simp only [List.forall_mem_cons]
  have hString : HasForm .string "// a\n/*" := by
    show '"' ∉ _
    decide
  have hLine : HasForm .lineComment "// \"b" := ⟨⟨_, rfl⟩, by decide⟩
  have hBlock : HasForm .blockComment "/*\n//\"*/" :=
    ⟨['\n', '/', '/', '"', '*', '/'], rfl, by decide⟩
  have hMark : HasForm .unknown "&" := ⟨'&', rfl, by decide +kernel⟩
  have hName : HasForm .identifier "ifx" :=
    ⟨⟨'i', _, rfl, by decide, List.all_eq_true.1 (by decide)⟩, rfl⟩
  have hReal : HasForm .real "5." :=
    ⟨['5'], [], rfl, nofun, List.all_eq_true.1 (by decide), nofun⟩
  exact ⟨hString, hLine, hBlock, hMark, hMark, hName, hReal,
    List.forall_mem_nil _⟩

end ImpFront.Source
