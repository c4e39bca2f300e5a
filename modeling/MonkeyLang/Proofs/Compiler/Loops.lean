import MonkeyLang.Proofs.Evaluator.Walk

/-!
# Programs without loops

A loop may stand anywhere in a program, also in the body of a function. A tree without loops has
none in its parts, and so the routines that the walk gets to know from it have none in their
bodies (`Statement.walkAll_loopFree`).
-/

set_option autoImplicit false

namespace MonkeyLang

mutual

/-- Whether there is a loop in an expression. -/
def Expression.hasLoop : Expression → Bool
  | .literal _ _ => false
  | .name _ => false
  | .unary _ operand _ => operand.hasLoop
  | .binary _ left right _ => left.hasLoop || right.hasLoop
  | .conditional condition consequence none _ => condition.hasLoop || consequence.hasLoop
  | .conditional condition consequence (some alternative) _ =>
    condition.hasLoop || consequence.hasLoop || alternative.hasLoop
  | .whileLoop _ _ _ => true
  | .forLoop _ _ _ _ _ => true
  | .function _ body _ => body.hasLoop
  | .call callee arguments _ => callee.hasLoop || Expression.haveLoop arguments
  | .array elements _ => Expression.haveLoop elements
  | .index target index _ => target.hasLoop || index.hasLoop
  | .assign _ value _ => value.hasLoop

/-- Whether there is a loop in one of some expressions. -/
def Expression.haveLoop : List Expression → Bool
  | [] => false
  | item :: items => item.hasLoop || Expression.haveLoop items

/-- Whether there is a loop in a binding. -/
def Binding.hasLoop : Binding → Bool
  | .mk _ value _ => value.hasLoop

/-- Whether there is a loop in a block. -/
def Block.hasLoop : Block → Bool
  | .mk body _ => Statement.haveLoop body

/-- Whether there is a loop in a statement. -/
def Statement.hasLoop : Statement → Bool
  | .bind bound => bound.hasLoop
  | .leave none _ => false
  | .leave (some value) _ => value.hasLoop
  | .expression value _ => value.hasLoop

/-- Whether there is a loop in one of some statements. -/
def Statement.haveLoop : List Statement → Bool
  | [] => false
  | first :: rest => first.hasLoop || Statement.haveLoop rest

end

/-! ## The walk through a program without loops -/

/-- No routine that the walk knows has a loop in its body. -/
def Walk.LoopFree (walk : Walk) : Prop :=
  ∀ number, Statement.haveLoop (walk.routines number).body = false

namespace Walk.LoopFree

variable {walk behind : Walk}

theorem define (free : walk.LoopFree) (name : Name) : (walk.define name).LoopFree := free

theorem enter (free : walk.LoopFree) (parameters : List Name) :
    (walk.enter parameters).LoopFree := by
  have key : ∀ (names : List Name) (inner : Walk), inner.LoopFree →
      (names.foldl Walk.define inner).LoopFree := by
    intro names
    induction names with
    | nil => exact fun _ free => free
    | cons name names ih => exact fun inner free => ih _ (free.define name)
  exact key parameters { walk with scope := walk.scope.enter } free

theorem close (inside : Walk) (parameters : List Name) {body : List Statement}
    (free : behind.LoopFree) (without : Statement.haveLoop body = false) :
    (walk.close inside behind parameters body).LoopFree := by
  intro number
  by_cases own : number = behind.number
  · subst own
    simpa only [Walk.close, Function.update_self] using without
  · simpa only [Walk.close, Function.update_of_ne own] using free number

end Walk.LoopFree

mutual

theorem Expression.walk_loopFree : ∀ (syntaxTree : Expression) {walk : Walk},
    walk.LoopFree → syntaxTree.hasLoop = false → (syntaxTree.walk walk).LoopFree
  | .literal value _, walk, free, _ => by
      cases value <;> exact free
  | .name _, _, free, _ => free
  | .unary _ operand _, _, free, without => operand.walk_loopFree free without
  | .binary operator left right _, _, free, without => by
      obtain ⟨first, second⟩ := Bool.or_eq_false_iff.mp without
      simp only [Expression.walk]
      split
      · exact left.walk_loopFree (right.walk_loopFree free second) first
      · exact right.walk_loopFree (left.walk_loopFree free first) second
  | .conditional condition consequence none _, _, free, without => by
      obtain ⟨first, second⟩ := Bool.or_eq_false_iff.mp without
      exact consequence.walk_loopFree (condition.walk_loopFree free first) second
  | .conditional condition consequence (some alternative) _, _, free, without => by
      obtain ⟨both, third⟩ := Bool.or_eq_false_iff.mp without
      obtain ⟨first, second⟩ := Bool.or_eq_false_iff.mp both
      exact alternative.walk_loopFree
        (consequence.walk_loopFree (condition.walk_loopFree free first) second) third
  | .whileLoop _ _ _, _, _, without => by cases without
  | .forLoop _ _ _ _ _, _, _, without => by cases without
  | .function parameters body _, _, free, without =>
      body.walkFunction_loopFree parameters free without
  | .call callee arguments _, _, free, without => by
      obtain ⟨first, second⟩ := Bool.or_eq_false_iff.mp without
      exact Expression.walkAll_loopFree arguments (callee.walk_loopFree free first) second
  | .array elements _, _, free, without => Expression.walkAll_loopFree elements free without
  | .index target index _, _, free, without => by
      obtain ⟨first, second⟩ := Bool.or_eq_false_iff.mp without
      exact index.walk_loopFree (target.walk_loopFree free first) second
  | .assign _ value _, _, free, without => value.walk_loopFree free without

theorem Expression.walkAll_loopFree : ∀ (items : List Expression) {walk : Walk},
    walk.LoopFree → Expression.haveLoop items = false → (Expression.walkAll items walk).LoopFree
  | [], _, free, _ => free
  | item :: items, _, free, without => by
      obtain ⟨first, rest⟩ := Bool.or_eq_false_iff.mp without
      exact Expression.walkAll_loopFree items (item.walk_loopFree free first) rest

theorem Binding.walk_loopFree : ∀ (bound : Binding) {walk : Walk},
    walk.LoopFree → bound.hasLoop = false → (bound.walk walk).LoopFree
  | .mk name value _, _, free, without => by
      cases value with
      | function parameters body span =>
          exact body.walkFunction_loopFree parameters (free.define name) without
      | _ => exact (Expression.walk_loopFree _ free without).define name

theorem Block.walkFunction_loopFree : ∀ (body : Block) (parameters : List Name) {walk : Walk},
    walk.LoopFree → body.hasLoop = false → (body.walkFunction parameters walk).LoopFree
  | .mk body _, parameters, _, free, without =>
      Walk.LoopFree.close _ parameters
        (Statement.walkAll_loopFree body (free.enter parameters) without) without

theorem Block.walk_loopFree : ∀ (body : Block) {walk : Walk},
    walk.LoopFree → body.hasLoop = false → (body.walk walk).LoopFree
  | .mk body _, _, free, without => Statement.walkAll_loopFree body free without

theorem Statement.walk_loopFree : ∀ (first : Statement) {walk : Walk},
    walk.LoopFree → first.hasLoop = false → (first.walk walk).LoopFree
  | .bind bound, _, free, without => bound.walk_loopFree free without
  | .leave none _, _, free, _ => free
  | .leave (some value) _, _, free, without => value.walk_loopFree free without
  | .expression value _, _, free, without => value.walk_loopFree free without

theorem Statement.walkAll_loopFree : ∀ (body : List Statement) {walk : Walk},
    walk.LoopFree → Statement.haveLoop body = false → (Statement.walkAll body walk).LoopFree
  | [], _, free, _ => free
  | first :: rest, _, free, without => by
      obtain ⟨head, tail⟩ := Bool.or_eq_false_iff.mp without
      exact Statement.walkAll_loopFree rest (first.walk_loopFree free head) tail

end

end MonkeyLang
