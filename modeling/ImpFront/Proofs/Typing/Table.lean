import Mathlib.Data.Finset.Card
import Mathlib.Data.List.Nodup
import Mathlib.Data.List.Perm.Subperm
import ImpFront.SymbolTable

/-!
# A table is what it was told first

A table is made by calls that declare one symbol each. Of the calls with one
name the first is accepted and the others are refused, so everything that a
table can be asked is answered by the first call with the name. The order of
the calls is kept by the list of the symbols alone: whether two tables agree
does not depend on it.

`Holds` is the invariant. It speaks of looking up only, because that is all
that a call goes by and all that the other questions come down to.

## Main results

* `Holds.declare`, `Holds.declareAll` — one call, and any number of them.
* `agrees_iff` — two tables agree if their lookups do.
* `first_call_wins` — what a new table answers, and what it is afterwards.
-/

namespace ImpFront.SymbolTable

/-! ## Calls -/

/-- Declare a symbol, and answer whether it was accepted. If it was not, the
table stays as it is. -/
def declare (table : SymbolTable) (symbol : Symbol) : Bool × SymbolTable :=
  match table.declare? symbol with
  | some next => (true, next)
  | none => (false, table)

/-- Declare symbols one after another: the answers, and the table behind the
last call. -/
def declareAll (table : SymbolTable) :
    List Symbol → List Bool × SymbolTable
  | [] => ([], table)
  | call :: calls =>
    let (answer, next) := table.declare call
    let (answers, last) := next.declareAll calls
    (answer :: answers, last)

/-- The table that calls make of a new one. -/
def ofCalls (calls : List Symbol) : SymbolTable := (empty.declareAll calls).2

/-- What a new table answers to the calls. -/
def answers (calls : List Symbol) : List Bool := (empty.declareAll calls).1

/-- The first of the calls with a name. -/
def firstCall? (name : String) (calls : List Symbol) : Option Symbol :=
  calls.find? (·.name = name)

/-- Is there a call with the name? -/
def called (name : String) (calls : List Symbol) : Bool :=
  calls.any (·.name = name)

/-- The calls that were answered with yes. -/
def accepted (calls : List Symbol) (answers : List Bool) : List Symbol :=
  ((calls.zip answers).filter Prod.snd).map Prod.fst

theorem isSome_firstCall? (name : String) (calls : List Symbol) :
    (firstCall? name calls).isSome = called name calls :=
  List.isSome_find?

theorem accepted_cons (call : Symbol) (calls : List Symbol) (answer : Bool)
    (answers : List Bool) :
    accepted (call :: calls) (answer :: answers) =
      (if answer then [call] else []) ++ accepted calls answers := by
  cases answer <;> rfl

/-! ## One call -/

section Declare

variable (table : SymbolTable) (call : Symbol)

theorem declare_of_declares (h : table.declares call.name = true) :
    table.declare call = (false, table) := by
  rw [declare, declare?_eq_none_iff.2 h]

theorem fst_declare :
    (table.declare call).1 = !table.declares call.name := by
  cases hTaken : table.declares call.name with
  | true => rw [declare_of_declares table call hTaken]; rfl
  | false =>
      obtain ⟨next, hNext⟩ : ∃ next, table.declare? call = some next := by
        rw [← Option.isSome_iff_exists, Option.isSome_iff_ne_none, ne_eq,
          declare?_eq_none_iff, hTaken]
        exact Bool.false_ne_true
      rw [declare, hNext]
      rfl

/-- A call adds its symbol behind all others, or nothing. -/
theorem symbols_declare :
    (table.declare call).2.symbols =
      table.symbols ++ if (table.declare call).1 then [call] else [] := by
  rw [declare]
  cases hNext : table.declare? call with
  | some next => exact symbols_declare? hNext
  | none => exact (List.append_nil _).symm

/-- A call is found under its name, unless another one was there before. -/
theorem find?_declare (name : String) :
    (table.declare call).2.find? name =
      (table.find? name).or (firstCall? name [call]) := by
  rw [find?, symbols_declare, List.find?_append, fst_declare]
  cases hTaken : table.declares call.name with
  | false => rfl
  | true =>
      rw [Bool.not_true, if_neg Bool.false_ne_true, List.find?_nil,
        Option.or_none]
      by_cases hName : call.name = name
      · -- there is a symbol of that name, and it stays the first one
        rw [declares, hName] at hTaken
        exact (Option.or_of_isSome hTaken).symm
      · rw [firstCall?, List.find?_cons_of_neg (by simpa using hName),
          List.find?_nil, Option.or_none]
        rfl

end Declare

/-! ## Many calls -/

/-- Under each name the table has the first call with it. -/
def Holds (table : SymbolTable) (calls : List Symbol) : Prop :=
  ∀ name, table.find? name = firstCall? name calls

namespace Holds

variable {table : SymbolTable} {calls : List Symbol}

theorem empty : Holds empty [] := fun _ => rfl

theorem declares_eq (h : Holds table calls) (name : String) :
    table.declares name = called name calls := by
  rw [declares, h name, isSome_firstCall?]

theorem declare (h : Holds table calls) (call : Symbol) :
    Holds (table.declare call).2 (calls ++ [call]) := by
  intro name
  rw [find?_declare, h name, firstCall?, firstCall?, firstCall?,
    List.find?_append]

theorem declareAll (h : Holds table calls) (more : List Symbol) :
    Holds (table.declareAll more).2 (calls ++ more) := by
  induction more generalizing table calls with
  | nil => rwa [List.append_nil]
  | cons call more ih =>
      have hRest := ih (h.declare call)
      rwa [List.append_assoc] at hRest

/-- A call is accepted unless an earlier one has its name. -/
theorem fst_declareAll (h : Holds table calls) (more : List Symbol) :
    (table.declareAll more).1 = more.mapIdx fun index call =>
      !called call.name (calls ++ more.take index) := by
  induction more generalizing table calls with
  | nil => rfl
  | cons call more ih =>
      have hFirst : (table.declare call).1 =
          !called call.name (calls ++ []) := by
        rw [fst_declare, h.declares_eq, List.append_nil]
      have hRest := ih (h.declare call)
      simp only [List.append_assoc] at hRest
      rw [List.mapIdx_cons]
      exact congrArg₂ _ hFirst hRest

theorem ofCalls (calls : List Symbol) : Holds (ofCalls calls) calls :=
  empty.declareAll calls

end Holds

/-- Behind the symbols of a table stand those that were accepted. -/
theorem symbols_declareAll (table : SymbolTable) (calls : List Symbol) :
    (table.declareAll calls).2.symbols =
      table.symbols ++ accepted calls (table.declareAll calls).1 := by
  induction calls generalizing table with
  | nil => exact (List.append_nil _).symm
  | cons call calls ih =>
      have hRest := ih (table.declare call).2
      rw [symbols_declare, List.append_assoc, ← accepted_cons] at hRest
      exact hRest

theorem snd_declareAll_append (table : SymbolTable)
    (first second : List Symbol) :
    (table.declareAll (first ++ second)).2 =
      ((table.declareAll first).2.declareAll second).2 := by
  induction first generalizing table with
  | nil => rfl
  | cons call first ih => exact ih (table.declare call).2

/-- There are as many symbols in a table as there are names of calls. -/
theorem size_ofCalls (calls : List Symbol) :
    (ofCalls calls).size = (calls.map Symbol.name).toFinset.card := by
  have hNames : ((ofCalls calls).symbols.map Symbol.name).toFinset =
      (calls.map Symbol.name).toFinset := by
    ext name
    rw [List.mem_toFinset, List.mem_toFinset, ← declares_iff,
      (Holds.ofCalls calls).declares_eq]
    simp [called]
  rw [← hNames, List.toFinset_card_of_nodup (ofCalls calls).distinct,
    List.length_map, size]

/-! ## Agreement -/

section Agrees

variable {a b : SymbolTable} {symbol : Symbol}

/-- A symbol of a table is found under its name. -/
theorem find?_of_mem (h : symbol ∈ a.symbols) :
    a.find? symbol.name = some symbol := by
  obtain ⟨other, hFind⟩ : ∃ other, a.find? symbol.name = some other := by
    rw [← Option.isSome_iff_exists]
    exact declares_iff.2 (List.mem_map_of_mem h)
  have hName : other.name = symbol.name := by
    simpa using List.find?_some hFind
  rw [hFind, List.inj_on_of_nodup_map a.distinct
    (List.mem_of_find?_eq_some hFind) h hName]

/-- Tables of one size, of which the second has all names of the first, have
the same names. -/
theorem perm_names (hSize : a.size = b.size)
    (hNames : a.symbols.map Symbol.name ⊆ b.symbols.map Symbol.name) :
    (a.symbols.map Symbol.name).Perm (b.symbols.map Symbol.name) := by
  apply (a.distinct.subperm hNames).perm_of_length_le
  rw [List.length_map, List.length_map]
  exact hSize.ge

/-- Two tables agree if they have the same names, and under each name symbols
that agree. -/
theorem agrees_iff :
    a.agrees b = true ↔
      (∀ name, a.declares name = b.declares name) ∧
        ∀ name, ∀ first ∈ a.find? name, ∀ other ∈ b.find? name,
          first.agrees other = true := by
  have hAll : a.agrees b = true ↔ a.size = b.size ∧
      ∀ symbol ∈ a.symbols, ∃ other, b.find? symbol.name = some other ∧
        symbol.agrees other = true := by
    rw [agrees, Bool.and_eq_true, decide_eq_true_iff, List.all_eq_true]
    refine and_congr_right fun _ => forall₂_congr fun symbol _ => ?_
    cases b.find? symbol.name <;> simp
  rw [hAll]
  constructor
  · rintro ⟨hSize, hFound⟩
    have hNames : a.symbols.map Symbol.name ⊆ b.symbols.map Symbol.name := by
      intro name hMem
      obtain ⟨symbol, hSymbol, rfl⟩ := List.mem_map.1 hMem
      obtain ⟨other, hOther, -⟩ := hFound symbol hSymbol
      exact declares_iff.1 (Option.isSome_of_eq_some hOther)
    constructor
    · intro name
      rw [Bool.eq_iff_iff, declares_iff, declares_iff]
      exact (perm_names hSize hNames).mem_iff
    · intro name first hFirst other hOther
      have hName : first.name = name := by simpa using List.find?_some hFirst
      obtain ⟨other', hOther', hAgrees⟩ :=
        hFound first (List.mem_of_find?_eq_some hFirst)
      rw [hName, hOther] at hOther'
      cases hOther'
      exact hAgrees
  · rintro ⟨hNames, hFound⟩
    have hPerm : (a.symbols.map Symbol.name).Perm
        (b.symbols.map Symbol.name) := by
      refine (List.perm_ext_iff_of_nodup a.distinct b.distinct).2 fun name => ?_
      rw [← declares_iff, ← declares_iff, hNames name]
    constructor
    · simpa [size] using hPerm.length_eq
    · intro symbol hSymbol
      have hFirst := find?_of_mem hSymbol
      have hDeclared : b.declares symbol.name = true := by
        rw [← hNames, declares, hFirst]
        rfl
      obtain ⟨other, hOther⟩ := Option.isSome_iff_exists.1 hDeclared
      exact ⟨other, hOther, hFound _ symbol hFirst other hOther⟩

end Agrees

/-- **The first call with a name wins.** A new table accepts exactly the calls
whose name no earlier call has, and a refused call changes nothing. Behind the
calls the table lists those accepted, in their order; it has as many symbols
as the calls have names; and whatever is asked about a name is answered by the
first call with it. Two tables agree exactly if their calls have the same
names and the first calls with each name agree, in whatever order they came. -/
theorem first_call_wins (calls others : List Symbol) :
    (answers calls = calls.mapIdx fun index call =>
        !called call.name (calls.take index)) ∧
      (∀ call, called call.name calls = true →
        ofCalls (calls ++ [call]) = ofCalls calls) ∧
      (ofCalls calls).symbols = accepted calls (answers calls) ∧
      (ofCalls calls).size = (calls.map Symbol.name).toFinset.card ∧
      (ofCalls calls).isEmpty = decide ((ofCalls calls).size = 0) ∧
      (∀ name,
        (ofCalls calls).find? name = firstCall? name calls ∧
          (ofCalls calls).declares name = (firstCall? name calls).isSome ∧
          (ofCalls calls).typeOf? name =
            (firstCall? name calls).map Symbol.type) ∧
      ((ofCalls calls).agrees (ofCalls others) = true ↔
        (∀ name, called name calls = called name others) ∧
          ∀ name, ∀ first ∈ firstCall? name calls,
            ∀ other ∈ firstCall? name others, first.agrees other = true) := by
  have hHolds := Holds.ofCalls calls
  have hOthers := Holds.ofCalls others
  refine ⟨Holds.empty.fst_declareAll calls, ?_, symbols_declareAll empty calls,
    size_ofCalls calls, ?_, ?_, ?_⟩
  · intro call hCalled
    rw [← hHolds.declares_eq] at hCalled
    rw [ofCalls, snd_declareAll_append]
    show ((ofCalls calls).declare call).2 = ofCalls calls
    rw [declare_of_declares _ call hCalled]
  · rw [isEmpty, size, Bool.eq_iff_iff, List.isEmpty_iff_length_eq_zero,
      decide_eq_true_iff]
  · intro name
    refine ⟨hHolds name, ?_, ?_⟩
    · rw [declares, hHolds name]
    · rw [typeOf?, hHolds name]
  · simp only [agrees_iff, hHolds.declares_eq, hOthers.declares_eq,
      hHolds _, hOthers _]

/-- The second call with a name is refused, and order does not matter to
agreement. -/
example :
    let x : Symbol := ⟨"x", .long, "global", none, 1⟩
    let x' : Symbol := ⟨"x", .double, "global", none, 2⟩
    let y : Symbol := ⟨"y", .double, "global", none, 3⟩
    answers [x, x', y] = [true, false, true] ∧
      (ofCalls [x, x', y]).agrees (ofCalls [y, x]) = true := by decide

end ImpFront.SymbolTable
