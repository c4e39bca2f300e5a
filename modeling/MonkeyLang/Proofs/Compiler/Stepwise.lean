import MonkeyLang.Compiler.Generate
import MonkeyLang.Proofs.Program.Outline
import MonkeyLang.Proofs.Stateful

/-!
# What holds of the work of a compiler step by step

The compiler goes through the tree of a program. Whatever the nodes are, it takes the same few
steps: it resolves, binds and stores to names of the program, adds constants, and fails if there is
too much of something. A property that each of these steps has, and that work has if all of its
steps have it, is therefore a property of every compilation (`Compiling.Stepwise.statements` and its
companions). The induction over the tree is done here, once for all such properties.
-/

set_option autoImplicit false

namespace MonkeyLang

namespace Compiling

/-- The steps of the compiler have a property, as long as they are about names of some sort, and
so has work that consists of such steps. -/
structure Stepwise (named : Name → Prop) (good : ∀ α : Type, Compiling α → Prop) : Prop where
  pure : ∀ {α : Type} (value : α), good α (Pure.pure value)
  bind : ∀ {α β : Type} {work : Compiling α} {rest : α → Compiling β},
    good α work → (∀ value, good β (rest value)) → good β (work >>= rest)
  inFunction : ∀ {α : Type} {work : Compiling α}, good α work → good _ (inFunction work)
  departs : ∀ {α : Type} {rest : Compiling α} (span : Span), good α rest →
    good α (get >>= fun compiler => if compiler.scope.isGlobal = true then
      (throw (.returnOutsideFunction span) : Compiling PUnit) >>= fun _ => rest else rest)
  require : ∀ holds limit span, good _ (Compiling.require holds limit span)
  constant : ∀ value span, good _ (Compiling.constant value span)
  functionConstant : ∀ name parameters span body locals,
    good _ (Compiling.functionConstant name parameters span body locals)
  resolve : ∀ name, named name → good _ (Compiling.resolve name)
  define : ∀ name, named name → good _ (Compiling.define name)
  store : ∀ name symbol, named name → good _ (Compiling.store name symbol)

namespace Stepwise

variable {named : Name → Prop} {good : ∀ α : Type, Compiling α → Prop}

section

variable (stepwise : Stepwise named good)

include stepwise

theorem requireTarget (target : Nat) (span : Span) :
    good _ (Compiling.requireTarget target span) :=
  stepwise.require _ _ _

theorem literal (value : Literal) (span : Span) : good _ (Compiling.literal value span) := by
  cases value with
  | boolean value => cases value <;> exact stepwise.pure _
  | _ => exact stepwise.constant _ span

theorem parameters {names : List Name} (inside : ∀ name ∈ names, named name) :
    good _ (names.forM fun name => discard (Compiling.define name)) := by
  induction names with
  | nil => exact stepwise.pure _
  | cons name names ih =>
      obtain ⟨first, others⟩ := List.forall_mem_cons.mp inside
      have defined := stepwise.bind (stepwise.define name first) fun _ => stepwise.pure ()
      exact stepwise.bind defined fun _ => ih others

end

/-! ## The parts of a program -/

mutual

theorem expression (stepwise : Stepwise named good) : ∀ (value : Expression) (start : Nat),
    value.outline.NamesIn named → good _ (Compiling.expression value start)
  | .literal value span, start, inside => by
      simp only [Compiling.expression]
      exact stepwise.literal value span
  | .name identifier, start, inside => by
      simp only [Compiling.expression]
      exact stepwise.bind (stepwise.resolve identifier (Outline.namesIn_name.mp inside)) fun _ =>
        stepwise.pure _
  | .unary operator operand span, start, inside => by
      simp only [Expression.outline, Outline.namesIn_node, List.forall_mem_singleton] at inside
      simp only [Compiling.expression]
      exact stepwise.bind (expression stepwise operand start inside) fun _ => stepwise.pure _
  | .binary operator left right span, start, inside => by
      simp only [Expression.outline, Outline.namesIn_node, List.forall_mem_cons] at inside
      obtain ⟨first, second, -⟩ := inside
      simp only [Compiling.expression]
      split
      · exact stepwise.bind (expression stepwise right start second) fun _ =>
          stepwise.bind (expression stepwise left _ first) fun _ => stepwise.pure _
      · exact stepwise.bind (expression stepwise left start first) fun _ =>
          stepwise.bind (expression stepwise right _ second) fun _ => stepwise.pure _
  | .conditional condition consequence none span, start, inside => by
      simp only [Expression.outline, Outline.namesIn_node, List.forall_mem_cons] at inside
      obtain ⟨chooses, yes, -⟩ := inside
      simp only [Compiling.expression]
      refine stepwise.bind (expression stepwise condition start chooses) fun _ => ?_
      refine stepwise.bind (block stepwise .keep consequence _ yes) fun _ => ?_
      refine stepwise.bind (stepwise.requireTarget _ _) fun _ => ?_
      refine stepwise.bind (stepwise.pure _) fun _ => ?_
      exact stepwise.bind (stepwise.requireTarget _ _) fun _ => stepwise.pure _
  | .conditional condition consequence (some alternative) span, start, inside => by
      simp only [Expression.outline, Outline.namesIn_node, List.forall_mem_cons] at inside
      obtain ⟨chooses, yes, no, -⟩ := inside
      simp only [Compiling.expression]
      refine stepwise.bind (expression stepwise condition start chooses) fun _ => ?_
      refine stepwise.bind (block stepwise .keep consequence _ yes) fun _ => ?_
      refine stepwise.bind (stepwise.requireTarget _ _) fun _ => ?_
      refine stepwise.bind (block stepwise .keep alternative _ no) fun _ => ?_
      exact stepwise.bind (stepwise.requireTarget _ _) fun _ => stepwise.pure _
  | .whileLoop condition body span, start, inside => by
      simp only [Expression.outline, Outline.namesIn_node, List.forall_mem_cons] at inside
      obtain ⟨chooses, loops, -⟩ := inside
      simp only [Compiling.expression]
      refine stepwise.bind (expression stepwise condition start chooses) fun _ => ?_
      refine stepwise.bind (block stepwise .discard body _ loops) fun _ => ?_
      exact stepwise.bind (stepwise.requireTarget _ _) fun _ => stepwise.pure _
  | .forLoop first condition post body span, start, inside => by
      simp only [Expression.outline, Outline.namesIn_node, List.forall_mem_cons] at inside
      obtain ⟨starts, chooses, steps, loops, -⟩ := inside
      simp only [Compiling.expression]
      refine stepwise.bind (binding stepwise first start starts) fun _ => ?_
      refine stepwise.bind (expression stepwise condition _ chooses) fun _ => ?_
      refine stepwise.bind (block stepwise .discard body _ loops) fun _ => ?_
      refine stepwise.bind (expression stepwise post _ steps) fun _ => ?_
      exact stepwise.bind (stepwise.requireTarget _ _) fun _ => stepwise.pure _
  | .function parameters body span, start, inside => by
      simp only [Compiling.expression]
      exact function stepwise none parameters span body inside
  | .call callee arguments span, start, inside => by
      simp only [Expression.outline, Outline.namesIn_node, List.forall_mem_cons] at inside
      obtain ⟨first, others⟩ := inside
      simp only [Compiling.expression]
      refine stepwise.bind (stepwise.require _ _ _) fun _ => ?_
      refine stepwise.bind (expression stepwise callee start first) fun _ => ?_
      exact stepwise.bind (expressions stepwise arguments start _ others) fun _ => stepwise.pure _
  | .array elements span, start, inside => by
      simp only [Expression.outline, Outline.namesIn_node] at inside
      simp only [Compiling.expression]
      refine stepwise.bind (stepwise.require _ _ _) fun _ => ?_
      exact stepwise.bind (expressions stepwise elements start _ inside) fun _ => stepwise.pure _
  | .index target index span, start, inside => by
      simp only [Expression.outline, Outline.namesIn_node, List.forall_mem_cons] at inside
      obtain ⟨first, second, -⟩ := inside
      simp only [Compiling.expression]
      exact stepwise.bind (expression stepwise target start first) fun _ =>
        stepwise.bind (expression stepwise index _ second) fun _ => stepwise.pure _
  | .assign target value span, start, inside => by
      simp only [Expression.outline, Outline.namesIn_node, List.forall_mem_cons,
        Outline.namesIn_name] at inside
      obtain ⟨known, valued, -⟩ := inside
      simp only [Compiling.expression]
      refine stepwise.bind (stepwise.resolve target known) fun symbol => ?_
      refine stepwise.bind (expression stepwise value start valued) fun _ => ?_
      exact stepwise.bind (stepwise.store target symbol known) fun _ => stepwise.pure _

theorem expressions (stepwise : Stepwise named good) :
    ∀ (items : List Expression) (start : Nat) (before : Fragment),
      (∀ part ∈ Expression.outlines items, part.NamesIn named) →
      good _ (Compiling.expressions items start before)
  | [], start, before, inside => by
      simp only [Compiling.expressions]
      exact stepwise.pure before
  | item :: items, start, before, inside => by
      obtain ⟨first, others⟩ := List.forall_mem_cons.mp inside
      simp only [Compiling.expressions]
      exact stepwise.bind (expression stepwise item _ first) fun _ =>
        expressions stepwise items start _ others

theorem function (stepwise : Stepwise named good) (name : Option String) (parameters : List Name)
    (span : Span) : ∀ body : Block,
      (Expression.function parameters body span).outline.NamesIn named →
      good _ (Compiling.function name parameters span body)
  | .mk body bodySpan, inside => by
      simp only [Expression.outline, Block.outline, Outline.namesIn_node, List.forall_mem_append,
        List.forall_mem_map, List.forall_mem_singleton, Outline.namesIn_name] at inside
      obtain ⟨known, inner⟩ := inside
      simp only [Compiling.function]
      have work := stepwise.bind (stepwise.parameters known) fun _ =>
        statements stepwise .leave body 0 .empty inner
      exact stepwise.bind (stepwise.inFunction work) fun _ =>
        stepwise.functionConstant name parameters span _ _

theorem binding (stepwise : Stepwise named good) : ∀ (bound : Binding) (start : Nat),
    bound.outline.NamesIn named → good _ (Compiling.binding bound start)
  | .mk name value span, start, inside => by
      simp only [Binding.outline, Outline.namesIn_node, List.forall_mem_cons,
        Outline.namesIn_name] at inside
      obtain ⟨known, valued, -⟩ := inside
      cases value with
      | function parameters body literalSpan =>
          simp only [Compiling.binding]
          refine stepwise.bind (stepwise.define name known) fun symbol => ?_
          refine stepwise.bind (function stepwise _ parameters literalSpan body valued) fun _ => ?_
          exact stepwise.bind (stepwise.store name symbol known) fun _ => stepwise.pure _
      | _ =>
          simp only [Compiling.binding]
          refine stepwise.bind (expression stepwise _ start valued) fun _ => ?_
          refine stepwise.bind (stepwise.define name known) fun symbol => ?_
          exact stepwise.bind (stepwise.store name symbol known) fun _ => stepwise.pure _

theorem block (stepwise : Stepwise named good) (ending : Ending) :
    ∀ (body : Block) (start : Nat), body.outline.NamesIn named →
      good _ (Compiling.block ending body start)
  | .mk body span, start, inside => by
      simp only [Block.outline, Outline.namesIn_node] at inside
      simp only [Compiling.block]
      exact statements stepwise ending body start .empty inside

theorem statement (stepwise : Stepwise named good) : ∀ (first : Statement) (start : Nat),
    first.outline.NamesIn named → good _ (Compiling.statement first start)
  | .bind bound, start, inside => by
      simp only [Compiling.statement]
      exact binding stepwise bound start inside
  | .leave value span, start, inside => by
      simp only [Compiling.statement]
      exact departure stepwise value span start inside
  | .expression value span, start, inside => by
      simp only [Statement.outline, Outline.namesIn_node, List.forall_mem_singleton] at inside
      simp only [Compiling.statement]
      exact stepwise.bind (expression stepwise value start inside) fun _ => stepwise.pure _

theorem departure (stepwise : Stepwise named good) :
    ∀ (value : Option Expression) (span : Span) (start : Nat),
      (Statement.leave value span).outline.NamesIn named →
      good _ (Compiling.departure value span start)
  | none, span, start, inside => by
      simp only [Compiling.departure]
      exact stepwise.departs span (stepwise.bind (stepwise.pure _) fun _ => stepwise.pure _)
  | some value, span, start, inside => by
      simp only [Statement.outline, Outline.namesIn_node, List.forall_mem_singleton] at inside
      simp only [Compiling.departure]
      exact stepwise.departs span
        (stepwise.bind (expression stepwise value start inside) fun _ => stepwise.pure _)

theorem statements (stepwise : Stepwise named good) (ending : Ending) :
    ∀ (body : List Statement) (start : Nat) (before : Fragment),
      (∀ part ∈ Statement.outlines body, part.NamesIn named) →
      good _ (Compiling.statements ending body start before)
  | [], start, before, inside => by
      simp only [Compiling.statements]
      exact stepwise.pure _
  | [.expression value span], start, before, inside => by
      simp only [Statement.outlines, Statement.outline, Outline.namesIn_node,
        List.forall_mem_singleton] at inside
      simp only [Compiling.statements]
      exact stepwise.bind (expression stepwise value _ inside) fun _ => stepwise.pure _
  | [.leave value span], start, before, inside => by
      obtain ⟨first, -⟩ := List.forall_mem_cons.mp inside
      simp only [Compiling.statements]
      exact stepwise.bind (departure stepwise value span _ first) fun _ => stepwise.pure _
  | [.bind bound], start, before, inside => by
      obtain ⟨first, -⟩ := List.forall_mem_cons.mp inside
      simp only [Compiling.statements]
      exact stepwise.bind (statement stepwise (.bind bound) _ first) fun _ => stepwise.pure _
  | first :: second :: rest, start, before, inside => by
      obtain ⟨known, others⟩ := List.forall_mem_cons.mp inside
      simp only [Compiling.statements]
      exact stepwise.bind (statement stepwise first _ known) fun _ =>
        statements stepwise ending (second :: rest) start _ others

end

end Stepwise

end Compiling

end MonkeyLang
