import Mathlib.Data.List.Nodup
import ImpFront.Proofs.Cursor.Resumed
import ImpFront.Proofs.Grammar.Justified
import ImpFront.Proofs.Report.Caret
import ImpFront.Proofs.Source.Constants

/-!
# What is never reported

Three of the messages that there are for faults are never seen. Two are
about the beginning of an assignment, and no assignment is begun without the
look-ahead that has seen its name and its operator. The third one is about a
real that cannot be read, and a source has no such reals; tokens that do not
come from a source may have them.

No message stands for two faults. So it is enough that the faults are never
reported, which each error shows by itself: it is true of its token, and
these are true of none.

## Main results

* `message_injective` — messages tell the faults apart.
* `never_reported` — the messages that no program and no source has.
-/

namespace ImpFront

namespace SyntaxFault

/-- Every fault, in the order of its declaration. -/
def all : List SyntaxFault :=
  [declarationName, anotherDeclarationName, declarationEnd, expressionEnd,
   assignmentName, assignmentOperator, assignmentEnd,
   readOpening, readName, readClosing, readEnd,
   writeOpening, writeClosing, writeEnd, ifOpening, ifClosing, ifThen,
   whileOpening, whileClosing, blockClosing, groupClosing,
   operand, integerTooLarge, realUnreadable]

theorem mem_all (fault : SyntaxFault) : fault ∈ all := by
  cases fault <;> decide

theorem message_injective {fault other : SyntaxFault}
    (h : fault.message = other.message) : fault = other := by
  have hDistinct : (all.map message).Nodup := by decide +kernel
  exact List.inj_on_of_nodup_map hDistinct (mem_all fault) (mem_all other) h

end SyntaxFault

open Source (scan exists_endOfInput isSome_real?_of_mem)

namespace Grammar

theorem fault_ne_of_applies {fault : SyntaxFault} {token : Token}
    (h : fault.AppliesTo token) :
    fault ≠ .assignmentName ∧ fault ≠ .assignmentOperator := by
  constructor
  · rintro rfl
    exact h
  · rintro rfl
    exact h

/-- The reals of a source can be read. -/
theorem fault_ne_realUnreadable {source : String} {error : SyntaxError}
    (h : error ∈ (Program.ofTokens (scan source).tokens).errors) :
    error.fault ≠ .realUnreadable := by
  intro hFault
  have hApplies := errors_apply _ error h
  rw [hFault] at hApplies
  obtain ⟨hKind, hNone⟩ := hApplies
  have hMem := mem_tokens_of_error (exists_endOfInput source) error h
  have hSome := isSome_real?_of_mem hMem hKind
  rw [hNone] at hSome
  cases hSome

end Grammar

namespace Cursor

/-- A program is read with a cursor, and any fuel that is enough. -/
theorem exists_parse (tokens : List Token) :
    ∃ final,
      (∀ spare, (parse (fuelFor tokens + spare)).run.run (ofTokens tokens) =
        some (.ok (Program.ofTokens tokens).stmts, final)) ∧
      final.errors.toList = (Program.ofTokens tokens).errors := by
  obtain ⟨stream, hTokens, hUnread, hFinish⟩ := exists_stream tokens
  have hStart := at_ofTokens hTokens
  have hEnough := le_fuelFor hTokens
  rw [hUnread] at hStart hEnough
  have hFuel : 8 * (Reader.ofTokens tokens).unread.length + 11 ≤
      fuelFor tokens := by omega
  obtain ⟨final, hRun, hFinal⟩ :=
    (parse_ends (Reader.ofTokens tokens) hFinish.symm hFuel).exists_final
      (fun _ _ => parse_extends) hStart
  exact ⟨final, hRun, hFinal.errors⟩

/-- **Some messages are never reported.** Whatever the tokens are, no error of
their program says that the name or the operator of an assignment is missing.
The rules that are read with a cursor check for both, and their errors are
those of the program. And no error of a source says that a real cannot be
read. -/
theorem never_reported (tokens : List Token) (source : String) :
    (∃ stmts final,
      (∀ spare, (parse (fuelFor tokens + spare)).run.run (ofTokens tokens) =
        some (.ok stmts, final)) ∧
      Program.ofTokens tokens = ⟨stmts, final.errors.toList⟩) ∧
    (∀ error ∈ (Program.ofTokens tokens).errors,
      error.fault.message ≠ "Se esperaba identificador en la asignación." ∧
      error.fault.message ≠
        "Se esperaba un operador de asignación después del identificador.") ∧
    ∀ error ∈ (Program.ofTokens (scan source).tokens).errors,
      error.fault.message ≠ "Constante real inválida." := by
  refine ⟨?_, ?_, ?_⟩
  · obtain ⟨final, hRun, hErrors⟩ := exists_parse tokens
    refine ⟨_, final, hRun, ?_⟩
    rw [hErrors]
  · intro error hMem
    obtain ⟨hName, hOperator⟩ :=
      Grammar.fault_ne_of_applies (Grammar.errors_apply tokens error hMem)
    constructor
    · exact fun hMessage => hName (SyntaxFault.message_injective hMessage)
    · exact fun hMessage => hOperator (SyntaxFault.message_injective hMessage)
  · intro error hMem hMessage
    exact Grammar.fault_ne_realUnreadable hMem
      (SyntaxFault.message_injective hMessage)

end Cursor

end ImpFront
