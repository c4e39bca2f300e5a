import MonkeyLang.Proofs.Compiler.Slots
import MonkeyLang.Proofs.Evaluator.Walk

/-!
# What names stand for

The stream of a function reads a global slot where a name is used that stands for a global
symbol, and writes one where such a name is bound or assigned. Going through a program the way
the compiler does, one meets these symbols in the order of the instructions
(`Expression.globals` and its companions). The body of a function literal has a stream of its own
and is not gone through (`Routine.globals`).

What the walk knows at one place it knows at every later one: names are only ever bound, so that a
scope grows (`Scope.Grows`), and a routine keeps its number (`Walk.Later`).
-/

set_option autoImplicit false

namespace MonkeyLang

namespace Scope

/-- The scope has a global symbol, which may be hidden by others. -/
def Knows (scope : Scope) (symbol : Symbol) : Prop :=
  symbol.storage = .global ∧
    ∃ table ∈ scope.innermost :: scope.enclosing, symbol ∈ table.symbols

/-- A scope with more names bound in its innermost table. -/
inductive Grows (scope : Scope) : Scope → Prop where
  | refl : Grows scope scope
  | define {later : Scope} (grows : Grows scope later) (name : String) :
      Grows scope (later.define name).2

theorem knows_define {scope : Scope} {symbol : Symbol} {name : String} :
    (scope.define name).2.Knows symbol ↔
      symbol.storage = .global ∧ symbol = (scope.define name).1 ∨ scope.Knows symbol := by
  have symbols : (scope.define name).2.innermost.symbols =
      (scope.define name).1 :: scope.innermost.symbols := rfl
  have enclosing : (scope.define name).2.enclosing = scope.enclosing := rfl
  simp only [Knows, List.mem_cons, exists_eq_or_imp, symbols, enclosing, or_assoc, and_or_left]

theorem knows_enter {scope : Scope} {symbol : Symbol} :
    scope.enter.Knows symbol ↔ scope.Knows symbol := by
  simp [Knows, enter, SymbolTable.empty]

namespace Grows

variable {first second third scope later : Scope} {symbol : Symbol}

theorem trans (left : Grows first second) (right : Grows second third) : Grows first third := by
  induction right with
  | refl => exact left
  | define _ name ih => exact ih.define name

theorem enclosing (grows : Grows scope later) : later.enclosing = scope.enclosing := by
  induction grows with
  | refl => rfl
  | define _ _ ih => exact ih

theorem isGlobal (grows : Grows scope later) : later.isGlobal = scope.isGlobal := by
  simp only [Scope.isGlobal, grows.enclosing]

theorem definitions_le (grows : Grows scope later) : scope.definitions ≤ later.definitions := by
  induction grows with
  | refl => exact Nat.le_refl _
  | define _ _ ih => exact Nat.le_succ_of_le ih

theorem knows (grows : Grows scope later) (known : scope.Knows symbol) : later.Knows symbol := by
  induction grows with
  | refl => exact known
  | define _ _ ih => exact knows_define.mpr (.inr ih)

/-- A function binds no global names. -/
theorem knows_of_inner (grows : Grows scope later) (inner : scope.isGlobal = false)
    (known : later.Knows symbol) : scope.Knows symbol := by
  induction grows with
  | refl => exact known
  | define grows name ih =>
      rcases knows_define.mp known with ⟨global, rfl⟩ | known
      · have storage : (Scope.define _ name).1.storage = .frame :=
          if_neg (by rw [grows.isGlobal, inner]; exact Bool.false_ne_true)
        rw [storage] at global
        cases global
      · exact ih known

end Grows

end Scope

/-! ## The symbols of a stream -/

/-- The symbol alone if it is a global one. -/
def Symbol.globals (symbol : Symbol) : List Symbol :=
  match symbol.storage with
  | .global => [symbol]
  | _ => []

/-- The global symbol that a name stands for, if it stands for one. -/
def Scope.globals (scope : Scope) (name : Name) : List Symbol :=
  (scope.resolve? name.text).elim [] Symbol.globals

namespace Symbol

theorem mem_globals {symbol other : Symbol} :
    other ∈ symbol.globals ↔ other.storage = .global ∧ other = symbol := by
  unfold globals
  split
  · next global =>
      rw [List.mem_singleton]
      exact ⟨fun same => ⟨same ▸ global, same⟩, And.right⟩
  · next inner =>
      refine ⟨nofun, ?_⟩
      rintro ⟨global, rfl⟩
      exact absurd global inner

end Symbol

theorem Scope.knows_of_resolve? (scope : Scope) {name : String} {symbol : Symbol}
    (found : scope.resolve? name = some symbol) : ∀ other ∈ symbol.globals, scope.Knows other := by
  intro other member
  obtain ⟨global, rfl⟩ := Symbol.mem_globals.mp member
  exact ⟨global, Scope.mem_of_resolve? found⟩

theorem Scope.knows_of_define {scope : Scope} {name : String} {symbol : Symbol}
    (member : symbol ∈ (scope.define name).1.globals) : (scope.define name).2.Knows symbol :=
  Scope.knows_define.mpr (.inl (Symbol.mem_globals.mp member))

mutual

/-- The global symbols that an expression uses. -/
def Expression.globals : Expression → Walk → List Symbol
  | .literal _ _, _ => []
  | .name identifier, walk => walk.scope.globals identifier
  | .unary _ operand _, walk => operand.globals walk
  | .binary operator left right _, walk =>
    if operator.isSwapped then right.globals walk ++ left.globals (right.walk walk)
    else left.globals walk ++ right.globals (left.walk walk)
  | .conditional condition consequence none _, walk =>
    condition.globals walk ++ consequence.globals (condition.walk walk)
  | .conditional condition consequence (some alternative) _, walk =>
    condition.globals walk ++ consequence.globals (condition.walk walk) ++
      alternative.globals (consequence.walk (condition.walk walk))
  | .whileLoop condition body _, walk =>
    condition.globals walk ++ body.globals (condition.walk walk)
  | .forLoop first condition post body _, walk =>
    first.globals walk ++ (condition.globals (first.walk walk) ++
      body.globals (condition.walk (first.walk walk)) ++
      post.globals (body.walk (condition.walk (first.walk walk))))
  | .function _ _ _, _ => []
  | .call callee arguments _, walk =>
    callee.globals walk ++ Expression.globalsAll arguments (callee.walk walk)
  | .array elements _, walk => Expression.globalsAll elements walk
  | .index target index _, walk => target.globals walk ++ index.globals (target.walk walk)
  | .assign target value _, walk =>
    value.globals walk ++ walk.scope.globals target ++ walk.scope.globals target

/-- The global symbols that expressions use. -/
def Expression.globalsAll : List Expression → Walk → List Symbol
  | [], _ => []
  | item :: items, walk => item.globals walk ++ Expression.globalsAll items (item.walk walk)

/-- The global symbols that a binding uses, the one it binds last. -/
def Binding.globals : Binding → Walk → List Symbol
  | .mk name (.function _ _ _) _, walk => (walk.scope.define name.text).1.globals
  | .mk name value _, walk =>
    value.globals walk ++ ((value.walk walk).scope.define name.text).1.globals

/-- The global symbols that a block uses. -/
def Block.globals : Block → Walk → List Symbol
  | .mk body _, walk => Statement.globalsAll body walk

/-- The global symbols that a statement uses. -/
def Statement.globals : Statement → Walk → List Symbol
  | .bind bound, walk => bound.globals walk
  | .leave none _, _ => []
  | .leave (some value) _, walk => value.globals walk
  | .expression value _, walk => value.globals walk

/-- The global symbols that statements use. -/
def Statement.globalsAll : List Statement → Walk → List Symbol
  | [], _ => []
  | first :: rest, walk => first.globals walk ++ Statement.globalsAll rest (first.walk walk)

end

/-- The global symbols that the body of a routine uses. -/
def Routine.globals (routine : Routine) : List Symbol :=
  Statement.globalsAll routine.body routine.walk

/-! ## Later places of the walk -/

/-- One place of the walk comes behind another. -/
structure Walk.Later (before behind : Walk) : Prop where
  scope : before.scope.Grows behind.scope
  number : before.number ≤ behind.number
  routines : ∀ number < before.number, behind.routines number = before.routines number

namespace Walk.Later

variable {walk before behind first second third : Walk}

theorem refl (walk : Walk) : Later walk walk := ⟨.refl, Nat.le_refl _, fun _ _ => rfl⟩

theorem trans (left : Later first second) (right : Later second third) : Later first third where
  scope := left.scope.trans right.scope
  number := Nat.le_trans left.number right.number
  routines := fun number below =>
    (right.routines number (Nat.lt_of_lt_of_le below left.number)).trans
      (left.routines number below)

theorem addConstant (walk : Walk) : Later walk walk.addConstant :=
  ⟨.refl, Nat.le_succ _, fun _ _ => rfl⟩

theorem define (walk : Walk) (name : Name) : Later walk (walk.define name) :=
  ⟨.define .refl _, Nat.le_refl _, fun _ _ => rfl⟩

theorem foldl_define (names : List Name) (walk : Walk) :
    Later walk (names.foldl Walk.define walk) := by
  induction names generalizing walk with
  | nil => exact refl walk
  | cons name names ih => exact (define walk name).trans (ih _)

theorem close (parameters : List Name) (body : List Statement)
    (later : Later (walk.enter parameters) behind) :
    Later walk (walk.close (walk.enter parameters) behind parameters body) := by
  have entered := foldl_define parameters { walk with scope := walk.scope.enter }
  have number : walk.number ≤ behind.number := Nat.le_trans entered.number later.number
  refine ⟨.refl, Nat.le_succ_of_le number, fun index below => ?_⟩
  have other : index ≠ behind.number := Nat.ne_of_lt (Nat.lt_of_lt_of_le below number)
  simp only [Walk.close, Function.update_of_ne other]
  exact (later.routines index (Nat.lt_of_lt_of_le below entered.number)).trans
    (entered.routines index below)

end Walk.Later

theorem Literal.walk_later (value : Literal) (walk : Walk) : walk.Later (value.walk walk) := by
  cases value with
  | boolean => exact .refl walk
  | _ => exact .addConstant walk

mutual

theorem Expression.walk_later : ∀ (syntaxTree : Expression) (walk : Walk),
    walk.Later (syntaxTree.walk walk)
  | .literal value _, walk => value.walk_later walk
  | .name _, walk => .refl walk
  | .unary _ operand _, walk => operand.walk_later walk
  | .binary operator left right _, walk => by
      simp only [Expression.walk]
      split
      · exact (right.walk_later walk).trans (left.walk_later _)
      · exact (left.walk_later walk).trans (right.walk_later _)
  | .conditional condition consequence none _, walk =>
      (condition.walk_later walk).trans (consequence.walk_later _)
  | .conditional condition consequence (some alternative) _, walk =>
      ((condition.walk_later walk).trans (consequence.walk_later _)).trans
        (alternative.walk_later _)
  | .whileLoop condition body _, walk => (condition.walk_later walk).trans (body.walk_later _)
  | .forLoop first condition post body _, walk =>
      (((first.walk_later walk).trans (condition.walk_later _)).trans (body.walk_later _)).trans
        (post.walk_later _)
  | .function parameters body _, walk => body.walkFunction_later parameters walk
  | .call callee arguments _, walk =>
      (callee.walk_later walk).trans (Expression.walkAll_later arguments _)
  | .array elements _, walk => Expression.walkAll_later elements walk
  | .index target index _, walk => (target.walk_later walk).trans (index.walk_later _)
  | .assign _ value _, walk => value.walk_later walk

theorem Expression.walkAll_later : ∀ (items : List Expression) (walk : Walk),
    walk.Later (Expression.walkAll items walk)
  | [], walk => .refl walk
  | item :: items, walk => (item.walk_later walk).trans (Expression.walkAll_later items _)

theorem Binding.walk_later : ∀ (bound : Binding) (walk : Walk), walk.Later (bound.walk walk)
  | .mk name value _, walk => by
      cases value with
      | function parameters body span =>
          exact (Walk.Later.define walk name).trans (body.walkFunction_later parameters _)
      | _ => exact (Expression.walk_later _ walk).trans (.define _ name)

theorem Block.walkFunction_later : ∀ (body : Block) (parameters : List Name) (walk : Walk),
    walk.Later (body.walkFunction parameters walk)
  | .mk body _, parameters, _ =>
      Walk.Later.close parameters body (Statement.walkAll_later body _)

theorem Block.walk_later : ∀ (body : Block) (walk : Walk), walk.Later (body.walk walk)
  | .mk body _, walk => Statement.walkAll_later body walk

theorem Statement.walk_later : ∀ (first : Statement) (walk : Walk), walk.Later (first.walk walk)
  | .bind bound, walk => bound.walk_later walk
  | .leave none _, walk => .refl walk
  | .leave (some value) _, walk => value.walk_later walk
  | .expression value _, walk => value.walk_later walk

theorem Statement.walkAll_later : ∀ (body : List Statement) (walk : Walk),
    walk.Later (Statement.walkAll body walk)
  | [], walk => .refl walk
  | first :: rest, walk => (first.walk_later walk).trans (Statement.walkAll_later rest _)

end

end MonkeyLang
