import MonkeyLang.Builtin.Call
import MonkeyLang.Value.Operator

/-!
# Functions are opaque

A program can call a function, compare it with others and print it. Only a call looks at the
code: comparing takes the identities, and printing takes the name. When every function inside
of a value is replaced by another one of the same identity and the same name
(`Value.mapFunctions`), each operator and each builtin function therefore yields what it
yielded before, with its functions replaced in the same way.

The other general fact about functions is that nothing but an instruction brings new ones into
play: whatever holds of all functions in the operands holds of all functions in the result
(`Value.All`).
-/

set_option autoImplicit false

namespace MonkeyLang

namespace Value

mutual

/-- A value with each function inside of it replaced. -/
def mapFunctions (change : Function → Function) : Value → Value
  | .array items => .array (mapItems change items)
  | .function body => .function (change body)
  | .returned value => .returned (value.mapFunctions change)
  | .integer value => .integer value
  | .float value => .float value
  | .string value => .string value
  | .boolean value => .boolean value
  | .null => .null
  | .builtin callee => .builtin callee
  | .error message => .error message

/-- Values with each function inside of them replaced. -/
def mapItems (change : Function → Function) : List Value → List Value
  | [] => []
  | item :: items => item.mapFunctions change :: mapItems change items

end

theorem mapItems_eq_map (change : Function → Function) (items : List Value) :
    mapItems change items = items.map (mapFunctions change) := by
  induction items with
  | nil => rfl
  | cons item items ih => rw [mapItems, ih, List.map_cons]

mutual

/-- All functions inside of a value have a property. -/
def All (holds : Function → Prop) : Value → Prop
  | .array items => AllItems holds items
  | .function body => holds body
  | .returned value => value.All holds
  | _ => True

/-- All functions inside of some values have a property. -/
def AllItems (holds : Function → Prop) : List Value → Prop
  | [] => True
  | item :: items => item.All holds ∧ AllItems holds items

end

theorem allItems_iff {holds : Function → Prop} {items : List Value} :
    AllItems holds items ↔ ∀ item ∈ items, item.All holds := by
  induction items with
  | nil => simp [AllItems]
  | cons item items ih => simp [AllItems, ih]

/-! ## Replacing functions

A change of functions is harmless if it keeps identities and names. -/

/-- A change of functions that no operator notices. -/
structure Unnoticed (change : Function → Function) : Prop where
  identity : ∀ body, (change body).identity = body.identity
  name : ∀ body, (change body).name = body.name

section Replacing

variable {change : Function → Function}

@[simp] theorem kind_mapFunctions (value : Value) :
    (value.mapFunctions change).kind = value.kind := by
  cases value <;> rfl

@[simp] theorem isTruthy_mapFunctions (value : Value) :
    (value.mapFunctions change).isTruthy = value.isTruthy := by
  cases value <;> rfl

theorem unwrapped_mapFunctions : ∀ value : Value,
    (value.mapFunctions change).unwrapped = value.unwrapped.mapFunctions change
  | .returned value => by
      simp only [mapFunctions, unwrapped]
      exact unwrapped_mapFunctions value
  | .integer _ | .float _ | .string _ | .boolean _ | .null | .array _ | .function _
  | .builtin _ | .error _ => rfl

mutual

/-- A change that leaves alone the functions of a value leaves the value alone. -/
theorem mapFunctions_of_all : ∀ {value : Value}, value.All (fun body => change body = body) →
    value.mapFunctions change = value
  | .array items, fixed => by
      simp only [mapFunctions]
      rw [mapItems_of_allItems (by simpa only [All] using fixed)]
  | .function body, fixed => by
      simp only [All] at fixed
      simp only [mapFunctions, fixed]
  | .returned value, fixed => by
      simp only [mapFunctions]
      rw [mapFunctions_of_all (by simpa only [All] using fixed)]
  | .integer _, _ | .float _, _ | .string _, _ | .boolean _, _ | .null, _ | .builtin _, _
  | .error _, _ => rfl

theorem mapItems_of_allItems : ∀ {items : List Value},
    AllItems (fun body => change body = body) items → mapItems change items = items
  | [], _ => rfl
  | item :: items, fixed => by
      simp only [AllItems] at fixed
      rw [mapItems, mapFunctions_of_all fixed.1, mapItems_of_allItems fixed.2]

end

mutual

theorem equal_mapFunctions (unnoticed : Unnoticed change) : ∀ left right : Value,
    (left.mapFunctions change).equal (right.mapFunctions change) = left.equal right
  | .array left, right => by
      cases right with
      | array right =>
          simp only [mapFunctions, equal]
          exact equalItems_mapItems unnoticed left right
      | _ => simp only [mapFunctions, equal]
  | .returned left, right => by
      cases right with
      | returned right =>
          simp only [mapFunctions, equal]
          exact equal_mapFunctions unnoticed left right
      | _ => simp only [mapFunctions, equal]
  | .function left, right => by
      cases right with
      | function right => simp only [mapFunctions, equal, unnoticed.identity]
      | _ => simp only [mapFunctions, equal]
  | .integer _, right | .float _, right | .string _, right | .boolean _, right | .null, right
  | .builtin _, right | .error _, right => by cases right <;> simp only [mapFunctions, equal]

theorem equalItems_mapItems (unnoticed : Unnoticed change) : ∀ lefts rights : List Value,
    equalItems (mapItems change lefts) (mapItems change rights) = equalItems lefts rights
  | [], [] | [], _ :: _ | _ :: _, [] => by simp only [mapItems, equalItems]
  | left :: lefts, right :: rights => by
      simp only [mapItems, equalItems]
      rw [equal_mapFunctions unnoticed left right, equalItems_mapItems unnoticed lefts rights]

end

mutual

theorem text_mapFunctions (unnoticed : Unnoticed change) : ∀ value : Value,
    (value.mapFunctions change).text = value.text
  | .array items => by
      simp only [mapFunctions, text]
      rw [itemTexts_mapItems unnoticed items]
  | .function body => by simp only [mapFunctions, text, Function.text, unnoticed.name]
  | .returned value => by
      simp only [mapFunctions, text]
      exact text_mapFunctions unnoticed value
  | .integer _ | .float _ | .string _ | .boolean _ | .null | .builtin _ | .error _ => rfl

theorem itemTexts_mapItems (unnoticed : Unnoticed change) : ∀ items : List Value,
    itemTexts (mapItems change items) = itemTexts items
  | [] => rfl
  | .string value :: items => by
      simp only [mapItems, mapFunctions, itemTexts]
      rw [itemTexts_mapItems unnoticed items]
  | .array nested :: items => by
      have head := text_mapFunctions unnoticed (.array nested)
      simp only [mapFunctions] at head
      simp only [mapItems, mapFunctions, itemTexts]
      rw [head, itemTexts_mapItems unnoticed items]
  | .returned value :: items => by
      have head := text_mapFunctions unnoticed (.returned value)
      simp only [mapFunctions] at head
      simp only [mapItems, mapFunctions, itemTexts]
      rw [head, itemTexts_mapItems unnoticed items]
  | .function _ :: items => by
      simp only [mapItems, mapFunctions, itemTexts, text, Function.text, unnoticed.name]
      rw [itemTexts_mapItems unnoticed items]
  | .integer _ :: items | .float _ :: items | .boolean _ :: items | .null :: items
  | .builtin _ :: items | .error _ :: items => by
      simp only [mapItems, mapFunctions, itemTexts]
      rw [itemTexts_mapItems unnoticed items]

end

/-! ### Operators -/

theorem unsupported_mapFunctions (change : Function → Function) (operator : Opcode) (left right : Value) :
    unsupported operator (left.mapFunctions change) (right.mapFunctions change) =
      unsupported operator left right := by
  simp only [unsupported, kind_mapFunctions]

theorem arithmetic_mapFunctions (operator : Opcode) (left right : Value) :
    arithmetic operator (left.mapFunctions change) (right.mapFunctions change) =
      (arithmetic operator left right).map (mapFunctions change) := by
  have fault := unsupported_mapFunctions change operator left right
  cases left with
  | integer a =>
      cases right with
      | integer b =>
          simp only [mapFunctions, arithmetic]
          cases operator with
          | div => by_cases zero : b = 0 <;> simp [zero, Except.map, mapFunctions]
          | _ => rfl
      | _ => exact congrArg Except.error fault
  | float a =>
      cases right with
      | float b => cases operator <;> rfl
      | _ => exact congrArg Except.error fault
  | string a =>
      cases right with
      | string b => cases operator <;> rfl
      | _ => exact congrArg Except.error fault
  | _ => exact congrArg Except.error fault

theorem unordered_mapFunctions (change : Function → Function) (left right : Value) :
    unordered (left.mapFunctions change) (right.mapFunctions change) = unordered left right := by
  simp only [unordered, kind_mapFunctions]

theorem compare_mapFunctions (unnoticed : Unnoticed change) (operator : Opcode)
    (left right : Value) :
    compare operator (left.mapFunctions change) (right.mapFunctions change) =
      (compare operator left right).map (mapFunctions change) := by
  have fault := unordered_mapFunctions change left right
  cases operator with
  | equal => simp only [compare, equal_mapFunctions unnoticed, Except.map, mapFunctions]
  | notEqual => simp only [compare, equal_mapFunctions unnoticed, Except.map, mapFunctions]
  | greater =>
      cases left with
      | integer a =>
          cases right with
          | integer b => rfl
          | _ => exact congrArg Except.error fault
      | float a =>
          cases right with
          | float b => rfl
          | _ => exact congrArg Except.error fault
      | _ => exact congrArg Except.error fault
  | _ => simp only [compare, unsupported_mapFunctions, Except.map]

theorem negated_mapFunctions (value : Value) :
    (value.mapFunctions change).negated = value.negated.map (mapFunctions change) := by
  cases value <;> simp only [mapFunctions, negated, kind, Except.map]

theorem itemAt_mapItems (items : List Value) (index : Int64) :
    itemAt (mapItems change items) index = (itemAt items index).mapFunctions change := by
  simp only [itemAt, mapItems_eq_map]
  split
  · rfl
  · rw [List.getElem?_map]
    cases items[index.toInt.toNat]? <;> rfl

theorem characterAt_mapFunctions (text : String) (index : Int64) :
    (characterAt text index).mapFunctions change = characterAt text index := by
  simp only [characterAt]
  split
  · rfl
  · split <;> rfl

theorem indexed_mapFunctions (target index : Value) :
    indexed (target.mapFunctions change) (index.mapFunctions change) =
      (indexed target index).map (mapFunctions change) := by
  cases target <;> cases index <;>
    simp only [mapFunctions, indexed, kind, Except.map, itemAt_mapItems, characterAt_mapFunctions]

/-! ### Builtin functions -/

theorem length_mapItems (items : List Value) : (mapItems change items).length = items.length := by
  rw [mapItems_eq_map, List.length_map]

end Replacing

end Value

namespace Builtin

variable {change : Function → Function}

theorem output_mapItems (unnoticed : Value.Unnoticed change) (builtin : Builtin)
    (arguments : List Value) :
    builtin.output (Value.mapItems change arguments) = builtin.output arguments := by
  cases builtin with
  | print =>
      have texts : (Value.text ∘ Value.mapFunctions change) = Value.text :=
        funext fun value => Value.text_mapFunctions unnoticed value
      simp only [output, printedLine, Value.mapItems_eq_map, List.map_map, texts]
  | _ => rfl

theorem withOne_mapItems {function : Value → Value}
    (natural : ∀ value, function (value.mapFunctions change) =
      (function value).mapFunctions change) (arguments : List Value) :
    withOne function (Value.mapItems change arguments) =
      (withOne function arguments).mapFunctions change := by
  match arguments with
  | [argument] => exact natural argument
  | [] => rfl
  | _ :: _ :: _ =>
      simp only [Value.mapItems, withOne, List.length_cons, Value.length_mapItems]
      rfl

theorem withTwo_mapItems {function : Value → Value → Value}
    (natural : ∀ first second, function (first.mapFunctions change) (second.mapFunctions change) =
      (function first second).mapFunctions change) (arguments : List Value) :
    withTwo function (Value.mapItems change arguments) =
      (withTwo function arguments).mapFunctions change := by
  match arguments with
  | [target, item] => exact natural target item
  | [] | [_] => rfl
  | _ :: _ :: _ :: _ =>
      simp only [Value.mapItems, withTwo, List.length_cons, Value.length_mapItems]
      rfl

theorem result_mapItems (unnoticed : Value.Unnoticed change) (builtin : Builtin)
    (arguments : List Value) :
    builtin.result (Value.mapItems change arguments) =
      (builtin.result arguments).mapFunctions change := by
  cases builtin with
  | len =>
      refine withOne_mapItems (fun value => ?_) arguments
      cases value <;> simp only [length, Value.mapFunctions, Value.length_mapItems] <;> rfl
  | print => rfl
  | push =>
      refine withTwo_mapItems (fun target item => ?_) arguments
      cases target with
      | array items =>
          simp only [pushed, Value.mapFunctions, Value.mapItems_eq_map, List.map_append,
            List.map_cons, List.map_nil]
      | _ => rfl
  | first =>
      refine withOne_mapItems (fun value => ?_) arguments
      cases value with
      | array items => cases items <;> rfl
      | _ => rfl
  | last =>
      refine withOne_mapItems (fun value => ?_) arguments
      cases value with
      | array items =>
          simp only [lastOf, Value.mapFunctions, Value.mapItems_eq_map, List.getLast?_map]
          cases items.getLast? <;> rfl
      | _ => rfl
  | rest =>
      refine withOne_mapItems (fun value => ?_) arguments
      cases value with
      | array items => cases items <;> rfl
      | _ => rfl
  | typeof =>
      refine withOne_mapItems (fun value => ?_) arguments
      simp only [Value.kind_mapFunctions, Value.mapFunctions]
  | str =>
      refine withOne_mapItems (fun value => ?_) arguments
      simp only [Value.text_mapFunctions unnoticed, Value.mapFunctions]
  | int =>
      refine withOne_mapItems (fun value => ?_) arguments
      cases value with
      | string text =>
          simp only [integerOf, Value.mapFunctions]
          split <;> rfl
      | _ => rfl
  | float =>
      refine withOne_mapItems (fun value => ?_) arguments
      cases value with
      | string text =>
          simp only [floatOf, Value.mapFunctions]
          split <;> rfl
      | _ => rfl

end Builtin

/-! ## No operator brings a function into play -/

namespace Value

variable {holds : Function → Prop}

theorem All.mono {other : Function → Prop} (weaker : ∀ body, holds body → other body) :
    ∀ {value : Value}, value.All holds → value.All other
  | .array items, all => by
      simp only [All, allItems_iff] at all ⊢
      exact fun item member => (all item member).mono weaker
  | .function body, all => weaker body all
  | .returned value, all => by
      simp only [All] at all ⊢
      exact all.mono weaker
  | .integer _, _ | .float _, _ | .string _, _ | .boolean _, _ | .null, _ | .builtin _, _
  | .error _, _ => trivial

/-- What holds of every function holds of all functions inside of a value. -/
theorem all_of_forall (always : ∀ body, holds body) : ∀ value : Value, value.All holds
  | .array items => by
      simp only [All, allItems_iff]
      exact fun item _ => all_of_forall always item
  | .function body => always body
  | .returned value => by
      simp only [All]
      exact all_of_forall always value
  | .integer _ | .float _ | .string _ | .boolean _ | .null | .builtin _ | .error _ => trivial

theorem All.unwrapped : ∀ {value : Value}, value.All holds → value.unwrapped.All holds
  | .returned value, all => by
      simp only [All] at all
      exact all.unwrapped
  | .array _, all => all
  | .function _, all => all
  | .integer _, _ | .float _, _ | .string _, _ | .boolean _, _ | .null, _ | .builtin _, _
  | .error _, _ => trivial

theorem all_of_arithmetic {operator : Opcode} {left right value : Value}
    (found : arithmetic operator left right = .ok value) : value.All holds := by
  unfold arithmetic at found
  split at found <;> (try split at found) <;> (try split at found) <;> cases found <;> trivial

theorem all_of_compare {operator : Opcode} {left right value : Value}
    (found : compare operator left right = .ok value) : value.All holds := by
  unfold compare at found
  split at found <;> (try split at found) <;> cases found <;> trivial

theorem all_of_negated {operand value : Value} (found : operand.negated = .ok value) :
    value.All holds := by
  cases operand <;> cases found <;> trivial

theorem all_of_indexed {target index value : Value} (all : target.All holds)
    (found : indexed target index = .ok value) : value.All holds := by
  cases target <;> cases index <;> cases found
  case array.integer.refl items index =>
    simp only [All, allItems_iff] at all
    simp only [itemAt]
    split
    · trivial
    · cases inside : items[index.toInt.toNat]? with
      | none => trivial
      | some item => exact all item (List.mem_of_getElem? inside)
  case string.integer.refl text index =>
    simp only [characterAt]
    split
    · trivial
    · split <;> trivial

end Value

namespace Builtin

variable {holds : Function → Prop}

theorem all_withOne {function : Value → Value}
    (closed : ∀ value, value.All holds → (function value).All holds) {arguments : List Value}
    (all : ∀ argument ∈ arguments, argument.All holds) : (withOne function arguments).All holds := by
  match arguments with
  | [argument] => exact closed argument (all argument List.mem_cons_self)
  | [] | _ :: _ :: _ => trivial

theorem all_pushed {target item : Value} (targetAll : target.All holds) (itemAll : item.All holds) :
    (pushed target item).All holds := by
  cases target with
  | array items =>
      simp only [pushed, Value.All, Value.allItems_iff, List.mem_append, List.mem_singleton]
        at targetAll ⊢
      rintro value (member | rfl)
      · exact targetAll value member
      · exact itemAll
  | _ => trivial

theorem all_firstOf {value : Value} (all : value.All holds) : (firstOf value).All holds := by
  cases value with
  | array items =>
      simp only [Value.All, Value.allItems_iff] at all
      cases items with
      | nil => trivial
      | cons item items => exact all item List.mem_cons_self
  | _ => trivial

theorem all_lastOf {value : Value} (all : value.All holds) : (lastOf value).All holds := by
  cases value with
  | array items =>
      simp only [Value.All, Value.allItems_iff] at all
      cases latest : items.getLast? with
      | none => simp only [lastOf, latest]; trivial
      | some item =>
          simp only [lastOf, latest]
          exact all item (List.mem_of_getLast? latest)
  | _ => trivial

theorem all_restOf {value : Value} (all : value.All holds) : (restOf value).All holds := by
  cases value with
  | array items =>
      cases items with
      | nil => trivial
      | cons item items =>
          simp only [Value.All, Value.allItems_iff] at all
          simp only [restOf, Value.All, Value.allItems_iff]
          exact fun value member => all value (List.mem_cons_of_mem _ member)
  | _ => trivial

theorem all_result (builtin : Builtin) {arguments : List Value}
    (all : ∀ argument ∈ arguments, argument.All holds) : (builtin.result arguments).All holds := by
  cases builtin with
  | push =>
      match arguments with
      | [target, item] => exact all_pushed (all target (by simp)) (all item (by simp))
      | [] | [_] | _ :: _ :: _ :: _ => trivial
  | print => trivial
  | len => exact all_withOne (fun value _ => by cases value <;> trivial) all
  | first => exact all_withOne (fun _ => all_firstOf) all
  | last => exact all_withOne (fun _ => all_lastOf) all
  | rest => exact all_withOne (fun _ => all_restOf) all
  | typeof | str =>
      refine all_withOne (fun value _ => ?_) all
      trivial
  | int =>
      refine all_withOne (fun value _ => ?_) all
      cases value with
      | string text => simp only [integerOf]; split <;> trivial
      | _ => trivial
  | float =>
      refine all_withOne (fun value _ => ?_) all
      cases value with
      | string text => simp only [floatOf]; split <;> trivial
      | _ => trivial

end Builtin

end MonkeyLang
