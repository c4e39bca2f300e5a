import MonkeyLang.Builtin.Basic
import MonkeyLang.Scope

/-!
# Tables as logs of definitions

A log lists the names that were bound, the latest first. The definitions are numbered in the
order in which they were made, and a name stands for its latest one (`latest?`).

The table that has made the definitions of a log (`SymbolTable.ofLog`) finds a name at the number
of its latest definition, and behind all of them what it started with.
-/

set_option autoImplicit false

namespace MonkeyLang

/-- The number of the latest definition of a name, in a log with the latest definition first. -/
def latest? : List String → String → Option Nat
  | [], _ => none
  | bound :: earlier, name => if bound = name then some earlier.length else latest? earlier name

theorem latest?_lt {log : List String} {name : String} {number : Nat}
    (found : latest? log name = some number) : number < log.length := by
  induction log with
  | nil => cases found
  | cons bound earlier ih =>
    rw [latest?] at found
    split at found
    · cases found
      exact Nat.lt_succ_self _
    · exact Nat.lt_succ_of_lt (ih found)

/-- A name stands for no definition exactly if it was never bound. -/
theorem latest?_eq_none {log : List String} {name : String} :
    latest? log name = none ↔ name ∉ log := by
  induction log with
  | nil => simp [latest?]
  | cons bound earlier ih =>
    rw [latest?]
    split
    case isTrue same => simp [same]
    case isFalse different => simp [ih, Ne.symm different]

namespace SymbolTable

/-- The symbols of the definitions of a log, in front of others. -/
def symbolsOfLog (storage : Storage) (others : List Symbol) : List String → List Symbol
  | [] => others
  | name :: earlier => ⟨name, storage, earlier.length⟩ :: symbolsOfLog storage others earlier

/-- The table that has made the definitions of a log. -/
def ofLog (storage : Storage) (others : List Symbol) (log : List String) : SymbolTable :=
  ⟨symbolsOfLog storage others log, log.length⟩

variable {storage : Storage} {others : List Symbol} {log : List String} {name : String}

theorem lookup?_ofLog_of_some {number : Nat} (found : latest? log name = some number) :
    (ofLog storage others log).lookup? name = some ⟨name, storage, number⟩ := by
  induction log with
  | nil => cases found
  | cons bound earlier ih =>
    rw [latest?] at found
    split at found
    case isTrue same =>
      cases found
      subst same
      exact List.find?_cons_of_pos (by simp)
    case isFalse different =>
      exact (List.find?_cons_of_neg (by simpa using different)).trans (ih found)

theorem lookup?_ofLog_of_none (unbound : latest? log name = none) :
    (ofLog storage others log).lookup? name = others.find? (·.name == name) := by
  induction log with
  | nil => rfl
  | cons bound earlier ih =>
    rw [latest?] at unbound
    split at unbound
    case isTrue => cases unbound
    case isFalse different =>
      exact (List.find?_cons_of_neg (by simpa using different)).trans (ih unbound)

end SymbolTable

/-! ## The builtin functions -/

/-- The symbols of the builtin functions. -/
def builtinSymbols : List Symbol := (Scope.withBuiltins Builtin.names).innermost.symbols

theorem withBuiltins_eq :
    Scope.withBuiltins Builtin.names = ⟨.ofLog .global builtinSymbols [], []⟩ := by
  decide

theorem find?_builtinSymbols (name : String) :
    builtinSymbols.find? (·.name == name) =
      (Builtin.names.idxOf? name).map fun index => ⟨name, .builtin, index⟩ := by
  by_cases member : name ∈ Builtin.names
  · simp only [Builtin.names, Builtin.all, List.map_cons, List.map_nil, List.mem_cons,
      List.not_mem_nil, or_false] at member
    rcases member with rfl | rfl | rfl | rfl | rfl | rfl | rfl | rfl | rfl | rfl <;> decide
  · have symbols : ∀ symbol ∈ builtinSymbols, symbol.name ∈ Builtin.names := by decide
    have none : builtinSymbols.find? (·.name == name) = none := by
      rw [List.find?_eq_none]
      intro symbol among same
      exact member (eq_of_beq same ▸ symbols symbol among)
    rw [none, List.idxOf?_eq_none_iff.2 member]
    rfl

end MonkeyLang
