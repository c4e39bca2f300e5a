import Mathlib.Data.List.Induction
import Mathlib.Data.List.Sort
import Mathlib.Data.Option.Basic
import MonkeyLang.Scope

/-!
# Scopes as stacks of logs

A log lists what a table was told, the latest definition first: a name was given the next slot, or
it was made to stand for a builtin function. A scope is changed by four kinds of steps
(`Scope.Step`): the two kinds of definitions in its innermost table, and entering and leaving a
function. The same steps on a stack of logs only write down what is told (`Logs.perform?`).

After every run of steps the scope says what the logs say (`Scope.run_refines`). A name means its
latest definition in the innermost log that has one; the slots of a table are numbered by the
definitions that took one; the names that are listed are those whose latest definition took a slot,
in the order of these definitions. That order can also be had by sorting the current symbols by
their indices, in whatever order these are kept.

A function is left for the scope as it was when the function was entered, since what happens in
between only changes tables further inside (`Scope.Balanced.run?_enter_leave`).
-/

set_option autoImplicit false

namespace MonkeyLang

/-! ## Logs -/

/-- What a table is told: a name gets the next slot, or it stands for a builtin function. -/
inductive Definition where
  | slot (name : String)
  | builtin (index : Nat) (name : String)

namespace Definition

def name : Definition → String
  | slot name => name
  | builtin _ name => name

def isSlot : Definition → Bool
  | slot _ => true
  | builtin _ _ => false

/-- The symbol that a definition makes where so many slots have been given out. -/
def symbol (storage : Storage) (slots : Nat) : Definition → Symbol
  | slot name => ⟨name, storage, slots⟩
  | builtin index name => ⟨name, .builtin, index⟩

@[simp] theorem name_symbol (storage : Storage) (slots : Nat) (definition : Definition) :
    (definition.symbol storage slots).name = definition.name := by
  cases definition <;> rfl

/-- Only the definition of a slot makes a symbol that is not that of a builtin function. -/
theorem eq_slot {storage : Storage} {slots : Nat} (definition : Definition)
    (other : (definition.symbol storage slots).storage ≠ .builtin) :
    ∃ name, definition = slot name := by
  cases definition with
  | slot name => exact ⟨name, rfl⟩
  | builtin => exact absurd rfl other

end Definition

/-- What a table was told, the latest definition first. -/
abbrev Log := List Definition

namespace Log

/-- How many slots were given out. -/
def slots (log : Log) : Nat := log.countP Definition.isSlot

@[simp] theorem slots_slot_cons (name : String) (log : Log) :
    slots (.slot name :: log) = log.slots + 1 := List.countP_cons_of_pos rfl

@[simp] theorem slots_builtin_cons (index : Nat) (name : String) (log : Log) :
    slots (.builtin index name :: log) = log.slots := List.countP_cons_of_neg nofun

/-- The latest definition of a name, and what was told before it. -/
inductive Latest (name : String) : Log → Definition → Log → Prop where
  | here {definition : Definition} (earlier : Log) (same : definition.name = name) :
      Latest name (definition :: earlier) definition earlier
  | before {other definition : Definition} {log earlier : Log} (different : other.name ≠ name)
      (latest : Latest name log definition earlier) :
      Latest name (other :: log) definition earlier

variable {name : String} {log earlier earlier' : Log} {definition definition' : Definition}

theorem Latest.name_eq (latest : Latest name log definition earlier) : definition.name = name := by
  induction latest with
  | here _ same => exact same
  | before _ _ ih => exact ih

theorem Latest.suffix (latest : Latest name log definition earlier) :
    definition :: earlier <:+ log := by
  induction latest with
  | here earlier _ => exact List.suffix_rfl
  | before _ _ ih => exact ih.trans (List.suffix_cons _ _)

theorem Latest.mem (latest : Latest name log definition earlier) : definition ∈ log :=
  latest.suffix.subset List.mem_cons_self

theorem Latest.unique (latest : Latest name log definition earlier)
    (again : Latest name log definition' earlier') :
    definition = definition' ∧ earlier = earlier' := by
  induction latest with
  | here _ same =>
      cases again with
      | here => exact ⟨rfl, rfl⟩
      | before different => exact absurd same different
  | before different _ ih =>
      cases again with
      | here _ same => exact absurd same different
      | before _ rest => exact ih rest

/-- A slot that was given out later has a greater number. -/
theorem slots_lt_of_suffix {front back : Log} {label : String}
    (suffix : Definition.slot label :: back <:+ front) : slots back < slots front := by
  have more : slots (.slot label :: back) ≤ slots front := suffix.sublist.countP_le
  rw [slots_slot_cons] at more
  exact more

/-! ## The table of a log -/

/-- The symbols that the definitions of a log have made, the latest first. -/
def symbols (storage : Storage) : Log → List Symbol
  | [] => []
  | definition :: earlier => definition.symbol storage (slots earlier) :: symbols storage earlier

/-- The table that was told what a log says. -/
def table (storage : Storage) (log : Log) : SymbolTable := ⟨symbols storage log, slots log⟩

variable {storage : Storage} {symbol : Symbol}

theorem lookup?_table_cons (storage : Storage) (definition : Definition) (earlier : Log)
    (name : String) : (table storage (definition :: earlier)).lookup? name =
      if definition.name = name then some (definition.symbol storage (slots earlier))
      else (table storage earlier).lookup? name := by
  rw [SymbolTable.lookup?, table, symbols]
  split
  · next same => exact List.find?_cons_of_pos (by simpa using same)
  · next different => exact List.find?_cons_of_neg (by simpa using different)

/-- A table finds the symbol of the latest definition of a name. -/
theorem lookup?_table_eq_some : (table storage log).lookup? name = some symbol ↔
    ∃ definition earlier, Latest name log definition earlier ∧
      symbol = definition.symbol storage (slots earlier) := by
  induction log with
  | nil =>
      refine iff_of_false nofun ?_
      rintro ⟨_, _, ⟨⟩, -⟩
  | cons definition log ih =>
      rw [lookup?_table_cons]
      split
      · next same =>
          constructor
          · intro found
            exact ⟨_, _, .here log same, (Option.some.inj found).symm⟩
          · rintro ⟨_, _, latest, rfl⟩
            obtain ⟨rfl, rfl⟩ := (Latest.here log same).unique latest
            rfl
      · next different =>
          rw [ih]
          constructor
          · rintro ⟨found, earlier, latest, rfl⟩
            exact ⟨found, earlier, .before different latest, rfl⟩
          · rintro ⟨found, earlier, latest, rfl⟩
            cases latest with
            | here _ same => exact absurd same different
            | before _ latest => exact ⟨found, earlier, latest, rfl⟩

theorem lookup?_table_eq_none : (table storage log).lookup? name = none ↔
    ∀ definition ∈ log, definition.name ≠ name := by
  induction log with
  | nil => exact iff_of_true rfl (List.forall_mem_nil _)
  | cons definition log ih =>
      rw [lookup?_table_cons, List.forall_mem_cons, ← ih]
      split
      · next same => exact iff_of_false nofun fun both => both.1 same
      · next different => exact (and_iff_right different).symm

theorem mem_symbols (member : symbol ∈ symbols storage log) : ∃ definition earlier,
    definition :: earlier <:+ log ∧ symbol = definition.symbol storage (slots earlier) := by
  induction log with
  | nil => cases member
  | cons definition log ih =>
      rcases List.mem_cons.mp member with rfl | member
      · exact ⟨definition, log, List.suffix_rfl, rfl⟩
      · obtain ⟨found, earlier, suffix, rfl⟩ := ih member
        exact ⟨found, earlier, suffix.trans (List.suffix_cons _ _), rfl⟩

/-- The slots of a table were given out one after another. -/
theorem pairwise_symbols (storage : Storage) (log : Log) :
    (symbols storage log).Pairwise fun later earlier =>
      later.storage ≠ .builtin → earlier.storage ≠ .builtin → earlier.index < later.index := by
  induction log with
  | nil => exact .nil
  | cons definition log ih =>
      refine List.pairwise_cons.mpr ⟨fun symbol member later earlier => ?_, ih⟩
      obtain ⟨label, rfl⟩ := definition.eq_slot later
      obtain ⟨found, first, suffix, rfl⟩ := mem_symbols member
      obtain ⟨label, rfl⟩ := found.eq_slot earlier
      exact slots_lt_of_suffix suffix

end Log

/-! ## The names of a table -/

namespace SymbolTable

/-- The symbols that its names mean now, those of builtin functions left out, in the order in which
they were made. -/
def current (table : SymbolTable) : List Symbol :=
  table.symbols.reverse.filter fun symbol =>
    symbol.storage != .builtin && table.lookup? symbol.name == some symbol

theorem slotNames_eq (table : SymbolTable) : table.slotNames = table.current.map Symbol.name := rfl

theorem mem_current {table : SymbolTable} {symbol : Symbol} :
    symbol ∈ table.current ↔
      symbol.storage ≠ .builtin ∧ table.lookup? symbol.name = some symbol := by
  rw [current, List.mem_filter, List.mem_reverse, Bool.and_eq_true, bne_iff_ne, beq_iff_eq]
  exact and_iff_right_of_imp fun both => List.mem_of_find?_eq_some both.2

/-- Two names that mean something now are listed once each. -/
theorem nodup_slotNames {table : SymbolTable}
    (ordered : table.current.Pairwise fun first second => first.index < second.index) :
    table.slotNames.Nodup := by
  rw [slotNames_eq, List.nodup_iff_pairwise_ne, List.pairwise_map]
  refine ordered.imp_of_mem fun {first second} one other less same => ?_
  have found := (mem_current.mp one).2
  rw [same, (mem_current.mp other).2] at found
  obtain rfl := Option.some.inj found
  exact Nat.lt_irrefl _ less

/-- The names are listed in the order that comes from sorting what the table holds, whatever the
order in which it is held. -/
theorem slotNames_eq_mergeSort {table : SymbolTable}
    (ordered : table.current.Pairwise fun first second => first.index < second.index)
    {values : List Symbol} (distinct : values.Nodup)
    (held : ∀ symbol, symbol ∈ values ↔ table.lookup? symbol.name = some symbol) :
    table.slotNames = ((values.filter (·.storage != .builtin)).mergeSort
      fun first second => first.index ≤ second.index).map Symbol.name := by
  have once : (table.current.map Symbol.index).Nodup :=
    List.pairwise_map.mpr (ordered.imp Nat.ne_of_lt)
  have same : table.current.Perm (values.filter (·.storage != .builtin)) := by
    refine (List.perm_ext_iff_of_nodup once.of_map (distinct.filter _)).mpr fun symbol => ?_
    rw [mem_current, List.mem_filter, held, bne_iff_ne, and_comm]
  -- sorting leaves a sorted list as it is; indices that differ leave no choice
  have sorted := @List.pairwise_mergeSort _
    (fun first second : Symbol => decide (first.index ≤ second.index))
    (fun _ _ _ less further => decide_eq_true
      (Nat.le_trans (of_decide_eq_true less) (of_decide_eq_true further)))
    (fun first second => by simpa using Nat.le_total first.index second.index)
    (values.filter (·.storage != .builtin))
  rw [slotNames_eq]
  refine congrArg _ (List.Perm.eq_of_pairwise ?_ (ordered.imp Nat.le_of_lt)
    (sorted.imp of_decide_eq_true) (same.trans (List.mergeSort_perm _ _).symm))
  intro first second one other less greater
  have inside : second ∈ table.current :=
    same.mem_iff.mpr ((List.mergeSort_perm _ _).mem_iff.mp other)
  exact List.inj_on_of_nodup_map once one inside (Nat.le_antisymm less greater)

end SymbolTable

/-! ## What a table is to its log -/

namespace Log

variable {storage : Storage} {log : Log} {name : String}

theorem ordered_current (storage : Storage) (log : Log) : (table storage log).current.Pairwise
    fun first second => first.index < second.index := by
  have increasing := List.pairwise_reverse.mpr (pairwise_symbols storage log)
  refine (increasing.filter _).imp_of_mem fun {first second} one other less => ?_
  exact less (SymbolTable.mem_current.mp other).1 (SymbolTable.mem_current.mp one).1

theorem mem_slotNames (own : storage ≠ .builtin) : name ∈ (table storage log).slotNames ↔
    ∃ earlier, Latest name log (.slot name) earlier := by
  rw [SymbolTable.slotNames_eq, List.mem_map]
  constructor
  · rintro ⟨symbol, member, rfl⟩
    obtain ⟨other, found⟩ := SymbolTable.mem_current.mp member
    obtain ⟨definition, earlier, latest, made⟩ := lookup?_table_eq_some.mp found
    rw [made] at other
    obtain ⟨label, rfl⟩ := definition.eq_slot other
    obtain rfl : label = symbol.name := latest.name_eq
    exact ⟨earlier, latest⟩
  · rintro ⟨earlier, latest⟩
    refine ⟨Definition.symbol storage (slots earlier) (.slot name), ?_, rfl⟩
    exact SymbolTable.mem_current.mpr ⟨own, lookup?_table_eq_some.mpr ⟨_, _, latest, rfl⟩⟩

/-- A name that got a smaller slot was defined before. -/
theorem Latest.length_lt {first second : Definition} {other : String} {before after : Log}
    (one : Latest name log first before) (further : Latest other log second after)
    (less : slots before < slots after) : before.length < after.length := by
  by_contra more
  have shorter := List.suffix_of_suffix_length_le
    ((List.suffix_cons _ _).trans further.suffix) ((List.suffix_cons _ _).trans one.suffix)
    (Nat.le_of_not_lt more)
  exact Nat.not_le_of_lt less shorter.sublist.countP_le

/-- The names are those whose latest definition took a slot, in the order of these definitions. -/
structure Lists (log : Log) (names : List String) : Prop where
  nodup : names.Nodup
  mem_iff : ∀ name, name ∈ names ↔ ∃ earlier, Latest name log (.slot name) earlier
  ordered : names.Pairwise fun first second => ∀ before after,
    Latest first log (.slot first) before → Latest second log (.slot second) after →
      before.length < after.length

theorem lists_slotNames (own : storage ≠ .builtin) (log : Log) :
    log.Lists (table storage log).slotNames where
  nodup := SymbolTable.nodup_slotNames (ordered_current storage log)
  mem_iff _ := mem_slotNames own
  ordered := by
    rw [SymbolTable.slotNames_eq, List.pairwise_map]
    refine (ordered_current storage log).imp_of_mem ?_
    intro first second one other less before after latest further
    refine latest.length_lt further ?_
    have found := (SymbolTable.mem_current.mp one).2
    rw [lookup?_table_eq_some.mpr ⟨_, _, latest, rfl⟩, Option.some.injEq] at found
    have again := (SymbolTable.mem_current.mp other).2
    rw [lookup?_table_eq_some.mpr ⟨_, _, further, rfl⟩, Option.some.injEq] at again
    rw [← found, ← again] at less
    exact less

end Log

/-- The slots of a table are its own: no two of its symbols have the same one, each has been given
out, and all are kept in the same place. -/
structure SymbolTable.Slotted (table : SymbolTable) (storage : Storage) : Prop where
  distinct : (table.symbols.filter (·.storage != .builtin)).Pairwise
    fun later earlier => later.index ≠ earlier.index
  given : ∀ symbol ∈ table.symbols, symbol.storage ≠ .builtin →
    symbol.index < table.definitions ∧ symbol.storage = storage

theorem Log.slotted_table (storage : Storage) (log : Log) :
    (table storage log).Slotted storage where
  distinct := by
    refine ((pairwise_symbols storage log).filter _).imp_of_mem fun one other less => ?_
    have later := bne_iff_ne.mp (List.mem_filter.mp one).2
    have earlier := bne_iff_ne.mp (List.mem_filter.mp other).2
    exact (less later earlier).ne'
  given := by
    intro symbol member own
    obtain ⟨definition, earlier, suffix, rfl⟩ := mem_symbols member
    obtain ⟨label, rfl⟩ := definition.eq_slot own
    exact ⟨slots_lt_of_suffix suffix, rfl⟩

/-! ## Steps of scopes and of stacks of logs -/

/-- What is done to a scope. -/
inductive Scope.Step where
  | define (name : String)
  | defineBuiltin (index : Nat) (name : String)
  | enter
  | leave

namespace Scope

/-- What a step makes of a scope; the outermost table cannot be left. -/
def perform? (scope : Scope) : Step → Option Scope
  | .define name => some (scope.define name).2
  | .defineBuiltin index name => some (scope.defineBuiltin index name).2
  | .enter => some scope.enter
  | .leave => scope.leave?

def run? (scope : Scope) (steps : List Step) : Option Scope := steps.foldlM perform? scope

end Scope

/-- The log of the innermost table and those of the tables around it, the nearest first. -/
structure Logs where
  innermost : Log
  enclosing : List Log

/-- Where the slots are kept that a table with such surroundings gives out. -/
def storageWithin {α : Type} (around : List α) : Storage :=
  if around.isEmpty then .global else .frame

theorem storageWithin_ne_builtin {α : Type} (around : List α) :
    storageWithin around ≠ .builtin := by
  cases around <;> nofun

namespace Logs

def empty : Logs := ⟨[], []⟩

/-- What a step adds to the logs. -/
def perform? (logs : Logs) : Scope.Step → Option Logs
  | .define name => some ⟨.slot name :: logs.innermost, logs.enclosing⟩
  | .defineBuiltin index name => some ⟨.builtin index name :: logs.innermost, logs.enclosing⟩
  | .enter => some ⟨[], logs.innermost :: logs.enclosing⟩
  | .leave =>
      match logs.enclosing with
      | [] => none
      | log :: around => some ⟨log, around⟩

def run? (logs : Logs) (steps : List Scope.Step) : Option Logs := steps.foldlM perform? logs

/-- The tables of logs, each with those that follow around it. -/
def tables : List Log → List SymbolTable
  | [] => []
  | log :: around => log.table (storageWithin around) :: tables around

theorem storageWithin_tables (logs : List Log) :
    storageWithin (tables logs) = storageWithin logs := by
  cases logs <;> rfl

/-- The scope whose tables were told what the logs say. -/
def scope (logs : Logs) : Scope :=
  ⟨logs.innermost.table (storageWithin logs.enclosing), tables logs.enclosing⟩

theorem storage_scope (logs : Logs) : logs.scope.storage = storageWithin logs.enclosing := by
  obtain ⟨innermost, _ | ⟨log, around⟩⟩ := logs <;> rfl

theorem define_scope (logs : Logs) (name : String) : logs.scope.define name =
    (⟨name, storageWithin logs.enclosing, logs.innermost.slots⟩,
      scope ⟨.slot name :: logs.innermost, logs.enclosing⟩) := by
  rw [Scope.define, storage_scope]
  refine congrArg (Prod.mk _) (congrArg (Scope.mk · _) ?_)
  exact (congrArg (SymbolTable.mk _) (Log.slots_slot_cons name logs.innermost)).symm

/-- One step of a scope is one step of its logs. -/
theorem perform?_scope (logs : Logs) (step : Scope.Step) :
    logs.scope.perform? step = (logs.perform? step).map scope := by
  cases step with
  | define name => rw [Scope.perform?, define_scope, perform?, Option.map_some]
  | defineBuiltin index name => rfl
  | enter => rfl
  | leave => obtain ⟨innermost, _ | ⟨log, around⟩⟩ := logs <;> rfl

theorem run?_scope (logs : Logs) (steps : List Scope.Step) :
    logs.scope.run? steps = (logs.run? steps).map scope := by
  induction steps generalizing logs with
  | nil => rfl
  | cons step steps ih =>
      rw [Scope.run?, run?, List.foldlM_cons, List.foldlM_cons, perform?_scope]
      cases logs.perform? step with
      | none => rfl
      | some after => exact ih after

/-- What a name means in the tables of logs: the symbol of its latest definition in the first log
that has one. -/
theorem findSome?_tables {logs : List Log} {name : String} {symbol : Symbol} :
    (tables logs).findSome? (·.lookup? name) = some symbol ↔
      ∃ inner log around definition earlier, logs = inner ++ log :: around ∧
        (∀ log ∈ inner, ∀ definition ∈ log, definition.name ≠ name) ∧
        Log.Latest name log definition earlier ∧
        symbol = definition.symbol (storageWithin around) earlier.slots := by
  induction logs with
  | nil =>
      refine iff_of_false nofun ?_
      rintro ⟨inner, log, around, _, _, nothing, -⟩
      exact List.append_ne_nil_of_right_ne_nil inner (List.cons_ne_nil _ _) nothing.symm
  | cons log around ih =>
      rw [tables, List.findSome?_cons]
      split
      · next found known =>
          obtain ⟨definition, earlier, latest, rfl⟩ := Log.lookup?_table_eq_some.mp known
          constructor
          · intro same
            exact ⟨[], log, around, definition, earlier, rfl, List.forall_mem_nil _, latest,
              (Option.some.inj same).symm⟩
          · rintro ⟨_ | ⟨other, inner⟩, _, _, _, _, split, undefined, further, rfl⟩
            · cases split
              obtain ⟨rfl, rfl⟩ := latest.unique further
              rfl
            · cases split
              have others := (List.forall_mem_cons.mp undefined).1
              exact absurd latest.name_eq (others definition latest.mem)
      · next unknown =>
          have undefined := Log.lookup?_table_eq_none.mp unknown
          rw [ih]
          constructor
          · rintro ⟨inner, within, outer, definition, earlier, rfl, others, latest, rfl⟩
            exact ⟨log :: inner, within, outer, definition, earlier, rfl,
              List.forall_mem_cons.mpr ⟨undefined, others⟩, latest, rfl⟩
          · rintro ⟨_ | ⟨other, inner⟩, _, _, _, _, split, others, latest, rfl⟩
            · cases split
              exact absurd latest.name_eq (undefined _ latest.mem)
            · cases split
              exact ⟨inner, _, _, _, _, rfl, (List.forall_mem_cons.mp others).2, latest, rfl⟩

theorem slotted_tables {logs : List Log} {inner around : List SymbolTable} {table : SymbolTable}
    (split : tables logs = inner ++ table :: around) : table.Slotted (storageWithin around) := by
  induction logs generalizing inner with
  | nil => exact absurd split.symm (List.append_ne_nil_of_right_ne_nil _ (List.cons_ne_nil _ _))
  | cons log logs ih =>
      cases inner with
      | nil =>
          obtain ⟨rfl, rfl⟩ := List.cons.inj split
          rw [storageWithin_tables]
          exact Log.slotted_table _ log
      | cons first inner => exact ih (List.cons.inj split).2

end Logs

/-! ## What a scope is to its logs -/

namespace Scope

/-- The scope says what the logs say. -/
structure Refines (scope : Scope) (logs : Logs) : Prop where
  /-- A name means its latest definition in the innermost table that defines it. -/
  resolve?_eq_some : ∀ name symbol, scope.resolve? name = some symbol ↔
    ∃ inner log around definition earlier,
      logs.innermost :: logs.enclosing = inner ++ log :: around ∧
      (∀ log ∈ inner, ∀ definition ∈ log, definition.name ≠ name) ∧
      Log.Latest name log definition earlier ∧
      symbol = definition.symbol (storageWithin around) earlier.slots
  /-- The slots of every table are its own, and only those of the outermost one are global. -/
  slotted : ∀ inner table around, scope.innermost :: scope.enclosing = inner ++ table :: around →
    table.Slotted (storageWithin around)
  /-- The slot of a new definition is the number of those before it in the table. -/
  define_fst : ∀ name,
    (scope.define name).1 = ⟨name, storageWithin logs.enclosing, logs.innermost.slots⟩
  /-- The names of slots are listed in the order of their latest definitions. -/
  lists : logs.innermost.Lists scope.slotNames
  /-- The same list comes from the symbols that the names mean, in whatever order they are kept. -/
  slotNames_eq : ∀ values : List Symbol, values.Nodup →
    (∀ symbol, symbol ∈ values ↔ scope.innermost.lookup? symbol.name = some symbol) →
    scope.slotNames = ((values.filter (·.storage != .builtin)).mergeSort
      fun first second => first.index ≤ second.index).map Symbol.name

theorem refines_scope (logs : Logs) : logs.scope.Refines logs where
  resolve?_eq_some := @Logs.findSome?_tables (logs.innermost :: logs.enclosing)
  slotted _ _ _ := @Logs.slotted_tables (logs.innermost :: logs.enclosing) _ _ _
  define_fst name := by rw [Logs.define_scope]
  lists := Log.lists_slotNames (storageWithin_ne_builtin _) _
  slotNames_eq _ := SymbolTable.slotNames_eq_mergeSort (Log.ordered_current _ _)

/-! ## Leaving a function -/

/-- Every function that is entered is left again, and no other is. -/
inductive Balanced : List Step → Prop where
  | nil : Balanced []
  | define (name : String) {rest : List Step} (balanced : Balanced rest) :
      Balanced (.define name :: rest)
  | defineBuiltin (index : Nat) (name : String) {rest : List Step} (balanced : Balanced rest) :
      Balanced (.defineBuiltin index name :: rest)
  | nested {inside rest : List Step} (within : Balanced inside) (balanced : Balanced rest) :
      Balanced (.enter :: (inside ++ .leave :: rest))

theorem Balanced.append {steps more : List Step} (balanced : Balanced steps)
    (further : Balanced more) : Balanced (steps ++ more) := by
  induction balanced with
  | nil => exact further
  | define name _ ih => exact ih.define name
  | defineBuiltin index name _ ih => exact ih.defineBuiltin index name
  | @nested inside rest within _ _ ih =>
      rw [List.cons_append, List.append_assoc]
      exact within.nested ih

theorem run?_append (scope : Scope) (steps more : List Step) :
    scope.run? (steps ++ more) = (scope.run? steps).bind (·.run? more) :=
  List.foldlM_append

theorem run?_singleton (scope : Scope) (step : Step) : scope.run? [step] = scope.perform? step :=
  Option.bind_fun_some (scope.perform? step)

/-- Balanced steps only change the innermost table. -/
theorem Balanced.run? {steps : List Step} (balanced : Balanced steps) (scope : Scope) :
    ∃ innermost, scope.run? steps = some ⟨innermost, scope.enclosing⟩ := by
  induction balanced generalizing scope with
  | nil => exact ⟨scope.innermost, rfl⟩
  | define name _ ih => exact ih (scope.define name).2
  | defineBuiltin index name _ ih => exact ih (scope.defineBuiltin index name).2
  | @nested inside rest _ _ within ih =>
      obtain ⟨_, runs⟩ := within scope.enter
      obtain ⟨innermost, continues⟩ := ih scope
      have entered := run?_append scope.enter inside (.leave :: rest)
      rw [runs, Option.bind_some] at entered
      exact ⟨innermost, entered.trans continues⟩

/-- Leaving a function undoes what happened since it was entered. -/
theorem Balanced.run?_enter_leave {inside : List Step} (balanced : Balanced inside)
    (scope : Scope) : scope.run? (.enter :: (inside ++ [.leave])) = some scope := by
  obtain ⟨innermost, runs⟩ := balanced.run? scope.enter
  have entered := run?_append scope.enter inside [.leave]
  rw [runs, Option.bind_some, run?_singleton] at entered
  exact entered

/-- The functions that are open after some steps have been entered: what surrounds one is the scope
before that, and what came since is balanced. -/
inductive Entered : List Step → List SymbolTable → Prop where
  | outermost (steps : List Step) : Entered steps []
  | inside {before since : List Step} {scope : Scope} (reached : empty.run? before = some scope)
      (balanced : Balanced since) (around : Entered before scope.enclosing) :
      Entered (before ++ .enter :: since) (scope.innermost :: scope.enclosing)

theorem Entered.append {steps more : List Step} {tables : List SymbolTable}
    (entered : Entered steps tables) (balanced : Balanced more) :
    Entered (steps ++ more) tables := by
  cases entered with
  | outermost => exact .outermost _
  | inside reached since around =>
      rw [List.append_assoc]
      exact .inside reached (since.append balanced) around

theorem Entered.perform? {steps : List Step} {step : Step} {scope after : Scope}
    (entered : Entered steps scope.enclosing) (reached : empty.run? steps = some scope)
    (performed : scope.perform? step = some after) :
    Entered (steps ++ [step]) after.enclosing := by
  cases step with
  | define name =>
      cases performed
      exact entered.append (.define name .nil)
  | defineBuiltin index name =>
      cases performed
      exact entered.append (.defineBuiltin index name .nil)
  | enter =>
      cases performed
      exact .inside reached .nil entered
  | leave =>
      obtain ⟨innermost, enclosing⟩ := scope
      cases entered with
      | outermost => cases performed
      | inside _ since around =>
          cases performed
          rw [List.append_assoc]
          exact around.append (since.nested .nil)

theorem entered_of_run? {steps : List Step} {scope : Scope}
    (reached : empty.run? steps = some scope) : Entered steps scope.enclosing := by
  induction steps using List.reverseRecOn generalizing scope with
  | nil =>
      cases reached
      exact .outermost []
  | append_singleton steps step ih =>
      rw [run?_append] at reached
      obtain ⟨before, runs, performed⟩ := Option.bind_eq_some_iff.mp reached
      exact (ih runs).perform? runs ((run?_singleton before step).symm.trans performed)

/-- What leaving gives back is the scope before the step that entered the function. -/
theorem run?_leave_eq_some {steps : List Step} {scope : Scope} :
    empty.run? (steps ++ [.leave]) = some scope ↔ ∃ before since,
      steps = before ++ .enter :: since ∧ Balanced since ∧ empty.run? before = some scope := by
  constructor
  · intro left
    rw [run?_append] at left
    obtain ⟨⟨innermost, enclosing⟩, reached, left⟩ := Option.bind_eq_some_iff.mp left
    rw [run?_singleton] at left
    cases entered_of_run? reached with
    | outermost => cases left
    | inside runs balanced =>
        cases left
        exact ⟨_, _, rfl, balanced, runs⟩
  · rintro ⟨before, since, rfl, balanced, reached⟩
    rw [List.append_assoc, run?_append, reached]
    exact balanced.run?_enter_leave scope

/-- Scopes refine stacks of logs: after every run of steps the scope says what the logs say, and a
step that cannot be performed is the same one for both. Leaving a function gives back the scope as
it was when the function was entered. -/
theorem run_refines (steps : List Step) :
    Option.Rel Refines (empty.run? steps) (Logs.empty.run? steps) ∧
    ∀ scope, empty.run? (steps ++ [.leave]) = some scope ↔ ∃ before since,
      steps = before ++ .enter :: since ∧ Balanced since ∧ empty.run? before = some scope := by
  refine ⟨?_, fun scope => run?_leave_eq_some⟩
  have simulated : empty.run? steps = (Logs.empty.run? steps).map Logs.scope :=
    Logs.run?_scope .empty steps
  rw [simulated]
  cases Logs.empty.run? steps with
  | none => exact .none
  | some logs => exact .some (refines_scope logs)

example : (empty.run? [.define "a", .define "b", .defineBuiltin 0 "b", .define "a"]).map slotNames =
    some ["a"] := by decide

end Scope

end MonkeyLang
