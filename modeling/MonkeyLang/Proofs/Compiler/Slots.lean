import MonkeyLang.Builtin.Basic
import MonkeyLang.Compiler.State

/-!
# The slots that instructions reach

A symbol of the global table has an index, and an instruction has two bytes for it. As long as
every definition was accepted the index fits. A definition beyond the last slot is refused, but
its symbol stays in the table, and an instruction that refers to it later has lost the high bits
of the index. The slot that an instruction reaches is therefore the index without them
(`Symbol.reached`), and the scope as the instructions see it has these slots for indices
(`Scope.reached`).

A scope is sound if its symbols have slots of the kind that their table gives out
(`Scope.Sound`). Binding a name keeps a scope sound.
-/

set_option autoImplicit false

namespace MonkeyLang

/-- The symbol with the slot that an instruction reaches. -/
def Symbol.reached (symbol : Symbol) : Symbol :=
  match symbol.storage with
  | .global => { symbol with index := symbol.index % Limit.globals.bound }
  | _ => symbol

@[simp] theorem Symbol.name_reached (symbol : Symbol) : symbol.reached.name = symbol.name := by
  obtain ⟨_, storage, _⟩ := symbol
  cases storage <;> rfl

@[simp] theorem Symbol.storage_reached (symbol : Symbol) :
    symbol.reached.storage = symbol.storage := by
  obtain ⟨_, storage, _⟩ := symbol
  cases storage <;> rfl

/-- A symbol that was accepted has the slot of its index. -/
theorem Symbol.reached_of_lt {symbol : Symbol} (accepted : symbol.index < Limit.globals.bound) :
    symbol.reached = symbol := by
  obtain ⟨_, storage, _⟩ := symbol
  cases storage with
  | global => simp only [reached, Nat.mod_eq_of_lt accepted]
  | _ => rfl

theorem Symbol.reached_of_storage_ne {symbol : Symbol} (inner : symbol.storage ≠ .global) :
    symbol.reached = symbol := by
  obtain ⟨_, storage, _⟩ := symbol
  cases storage with
  | global => exact absurd rfl inner
  | _ => rfl

namespace SymbolTable

/-- The table with the slots that instructions reach. -/
def reached (table : SymbolTable) : SymbolTable :=
  { table with symbols := table.symbols.map Symbol.reached }

theorem lookup?_reached (table : SymbolTable) (name : String) :
    table.reached.lookup? name = (table.lookup? name).map Symbol.reached := by
  simp only [lookup?, reached, List.find?_map]
  congr 2
  funext symbol
  simp only [Function.comp_apply, Symbol.name_reached]

theorem define_reached {table : SymbolTable} {storage : Storage} {name : String}
    (kept : (table.define storage name).1.reached = (table.define storage name).1) :
    table.reached.define storage name =
      ((table.define storage name).1, (table.define storage name).2.reached) := by
  simp only [define] at kept
  simp only [define, reached, List.map_cons, kept]

theorem mem_of_lookup? {table : SymbolTable} {name : String} {symbol : Symbol}
    (found : table.lookup? name = some symbol) : symbol ∈ table.symbols :=
  List.mem_of_find?_eq_some found

theorem lookup?_define (table : SymbolTable) (storage : Storage) (name : String) :
    (table.define storage name).2.lookup? name = some (table.define storage name).1 := by
  simp [lookup?, define]

end SymbolTable

namespace Scope

/-- The scope with the slots that instructions reach. -/
def reached (scope : Scope) : Scope :=
  ⟨scope.innermost.reached, scope.enclosing.map SymbolTable.reached⟩

@[simp] theorem isGlobal_reached (scope : Scope) : scope.reached.isGlobal = scope.isGlobal := by
  simp [isGlobal, reached]

@[simp] theorem definitions_reached (scope : Scope) :
    scope.reached.definitions = scope.definitions := rfl

@[simp] theorem reached_enter (scope : Scope) : scope.enter.reached = scope.reached.enter := rfl

theorem storage_reached (scope : Scope) : scope.reached.storage = scope.storage := by
  simp [storage]

theorem resolve?_reached (scope : Scope) (name : String) :
    scope.reached.resolve? name = (scope.resolve? name).map Symbol.reached := by
  have key : ∀ tables : List SymbolTable,
      (tables.map SymbolTable.reached).findSome? (·.lookup? name) =
        (tables.findSome? (·.lookup? name)).map Symbol.reached := by
    intro tables
    induction tables with
    | nil => rfl
    | cons table tables ih =>
        simp only [List.map_cons, List.findSome?_cons, SymbolTable.lookup?_reached]
        cases table.lookup? name with
        | none => simpa using ih
        | some symbol => rfl
  simpa only [resolve?, reached, List.map_cons] using key (scope.innermost :: scope.enclosing)

theorem define_reached {scope : Scope} {name : String}
    (kept : (scope.define name).1.reached = (scope.define name).1) :
    scope.reached.define name = ((scope.define name).1, (scope.define name).2.reached) := by
  simp only [define, storage_reached] at kept ⊢
  rw [show scope.reached.innermost = scope.innermost.reached from rfl,
    SymbolTable.define_reached kept]
  rfl

theorem resolve?_define (scope : Scope) (name : String) :
    (scope.define name).2.resolve? name = some (scope.define name).1 := by
  simp [resolve?, define, SymbolTable.lookup?_define]

theorem resolve?_define_of_ne {scope : Scope} {name other : String} (differs : other ≠ name) :
    (scope.define name).2.resolve? other = scope.resolve? other := by
  have skipped : (scope.define name).2.innermost.lookup? other = scope.innermost.lookup? other :=
    List.find?_cons_of_neg (by simpa [define, SymbolTable.define] using Ne.symm differs)
  simp only [resolve?, List.findSome?_cons, skipped]
  rfl

@[simp] theorem definitions_define (scope : Scope) (name : String) :
    (scope.define name).2.definitions = scope.definitions + 1 := rfl

@[simp] theorem index_define (scope : Scope) (name : String) :
    (scope.define name).1.index = scope.definitions := rfl

@[simp] theorem storage_define (scope : Scope) (name : String) :
    (scope.define name).1.storage = scope.storage := rfl

@[simp] theorem isGlobal_define (scope : Scope) (name : String) :
    (scope.define name).2.isGlobal = scope.isGlobal := rfl

/-! ## Sound scopes -/

/-- The symbols of a scope have slots that exist: those of a function are slots of the innermost
call if they are in reach, and those of builtin functions belong to one. -/
structure Sound (scope : Scope) : Prop where
  builtins : ∀ table ∈ scope.innermost :: scope.enclosing, ∀ symbol ∈ table.symbols,
    symbol.storage = .builtin → symbol.index < Builtin.all.length
  locals : ∀ symbol ∈ scope.innermost.symbols, symbol.storage = .frame →
    scope.isGlobal = false ∧ symbol.index < scope.definitions

theorem Sound.enter {scope : Scope} (sound : scope.Sound) : scope.enter.Sound where
  builtins := by
    intro table inside
    rcases List.mem_cons.mp inside with rfl | inside
    · intro symbol member
      cases member
    · exact sound.builtins table inside
  locals := by
    intro symbol member
    cases member

theorem Sound.define {scope : Scope} (sound : scope.Sound) (name : String) :
    (scope.define name).2.Sound where
  builtins := by
    intro table inside symbol member builtin
    rcases List.mem_cons.mp inside with rfl | inside
    · rcases List.mem_cons.mp member with rfl | member
      · simp only [Scope.storage] at builtin
        split at builtin <;> cases builtin
      · exact sound.builtins _ List.mem_cons_self symbol member builtin
    · exact sound.builtins table (List.mem_cons_of_mem _ inside) symbol member builtin
  locals := by
    intro symbol member frame
    rcases List.mem_cons.mp member with rfl | member
    · refine ⟨?_, Nat.lt_succ_self _⟩
      simp only [Scope.storage] at frame
      split at frame
      · cases frame
      · next inner => simpa using inner
    · obtain ⟨inner, below⟩ := sound.locals symbol member frame
      exact ⟨inner, Nat.lt_succ_of_lt below⟩

theorem mem_of_resolve? {scope : Scope} {name : String} {symbol : Symbol}
    (found : scope.resolve? name = some symbol) :
    ∃ table ∈ scope.innermost :: scope.enclosing, symbol ∈ table.symbols := by
  obtain ⟨table, inside, looked⟩ := List.exists_of_findSome?_eq_some found
  exact ⟨table, inside, SymbolTable.mem_of_lookup? looked⟩

/-- A name that the innermost table binds means a symbol of that table. -/
theorem mem_innermost_of_resolve? {scope : Scope} {name : String} {symbol : Symbol}
    (own : scope.definesLocally name = true) (found : scope.resolve? name = some symbol) :
    symbol ∈ scope.innermost.symbols := by
  obtain ⟨bound, looked⟩ := Option.isSome_iff_exists.mp own
  simp only [resolve?, List.findSome?_cons, looked, Option.some.injEq] at found
  exact SymbolTable.mem_of_lookup? (found ▸ looked)

end Scope

namespace Compiler

/-- A new compiler knows nothing but builtin functions. -/
theorem builtin_of_mem_new :
    ∀ symbol ∈ new.scope.innermost.symbols,
      symbol.storage = .builtin ∧ symbol.index < Builtin.all.length := by
  decide

theorem sound_new : new.scope.Sound where
  builtins := by
    intro table inside symbol member _
    obtain rfl := List.mem_singleton.mp inside
    exact (builtin_of_mem_new symbol member).2
  locals := by
    intro symbol member frame
    have builtin := (builtin_of_mem_new symbol member).1
    rw [frame] at builtin
    cases builtin

theorem reached_new : new.scope.reached = new.scope := rfl

end Compiler

end MonkeyLang
