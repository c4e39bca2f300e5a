import MonkeyLang.Proofs.Compiler.Recording

/-!
# Names have their lexical meaning

The compiler gives every name of a program the meaning that a journal gives it. This is shown for
each kind of part of a program (`expression_records` and its companions), by the recursion of the
compiler: what comes first in the code comes first in the journal.

For a whole program: if it is compiled, the journal goes through all its visits, and the stream of
the program and those of its functions read and write what the journal says, in the same order. If
it is not compiled, the journal comes to a visit that is refused with the same fault.
-/

set_option autoImplicit false

namespace MonkeyLang

open Records Fragment.Accesses

mutual

theorem expression_records : ∀ (syntaxTree : Expression) (start : Nat),
    Records.Code (Compiling.expression syntaxTree start) syntaxTree.visits
  | .literal value span, start => by
      simp only [Compiling.expression, Expression.visits]
      exact literal value span
  | .name identifier, start => by
      simp only [Compiling.expression, Expression.visits]
      refine map (read identifier) fun accesses symbol loads => ?_
      rw [loads, Compiling.load_eq]
      exact empty.load symbol.referent
  | .unary operator operand span, start => by
      simp only [Compiling.expression, Expression.visits]
      refine map (expression_records operand start) fun accesses code has => has.emit _ _ ?_ ?_
      all_goals cases operator <;> rfl
  | .binary operator left right span, start => by
      simp only [Compiling.expression, Expression.visits]
      split
      · refine bind (expression_records right start) fun accesses first firstHas => ?_
        refine map (expression_records left _) fun more second secondHas => ?_
        exact (firstHas.append secondHas).emitAll operator.widths_opcodes
      · refine bind (expression_records left start) fun accesses first firstHas => ?_
        refine map (expression_records right _) fun more second secondHas => ?_
        exact (firstHas.append secondHas).emitAll operator.widths_opcodes
  | .conditional condition consequence none span, start => by
      simp only [Compiling.expression, Expression.visits]
      refine bind (expression_records condition start) fun accesses test testHas => ?_
      refine bind (block_records .keep consequence _) fun more chosen chosenHas => ?_
      refine check (check (Records.pure ?_))
      rw [List.append_nil, ← List.append_nil (accesses ++ more)]
      exact ((testHas.guarded chosenHas _).jump _).append (single .null [] rfl rfl)
  | .conditional condition consequence (some alternative) span, start => by
      simp only [Compiling.expression, Expression.visits]
      refine bind (expression_records condition start) fun accesses test testHas => ?_
      refine bind (block_records .keep consequence _) fun more chosen chosenHas => check ?_
      refine bind (block_records .keep alternative _) fun rest other otherHas => ?_
      refine check (Records.pure ?_)
      rw [List.append_nil, ← List.append_assoc]
      exact ((testHas.guarded chosenHas _).jump _).append otherHas
  | .whileLoop condition body span, start => by
      simp only [Compiling.expression, Expression.visits]
      refine bind (expression_records condition start) fun accesses test testHas => ?_
      refine bind (block_records .discard body _) fun more pass passHas => ?_
      refine check (Records.pure ?_)
      rw [List.append_nil]
      exact ((testHas.guarded passHas _).jump _).emit .null [] rfl rfl
  | .forLoop first condition post body span, start => by
      simp only [Compiling.expression, Expression.visits]
      refine bind (binding_records first start) fun accesses preparation preparationHas => ?_
      refine bind (expression_records condition _) fun more test testHas => ?_
      refine bind (block_records .discard body _) fun further pass passHas => ?_
      refine bind (expression_records post _) fun rest step stepHas => ?_
      refine check (Records.pure ?_)
      rw [List.append_nil, ← List.append_assoc more further rest]
      exact ((preparationHas.append ((testHas.guarded passHas _).append
        (stepHas.emit .pop [] rfl rfl))).jump _).emit .null [] rfl rfl
  | .function parameters body span, start => by
      simp only [Compiling.expression, Expression.visits]
      refine (function_records none parameters span body).weaken fun accesses code whole => ?_
      obtain ⟨rfl, has⟩ := whole
      exact has
  | .call callee arguments span, start => by
      simp only [Compiling.expression, Expression.visits]
      refine check (bind (expression_records callee start) fun accesses code has => ?_)
      exact map (expressions_record arguments start code accesses has) fun more all allHas =>
        allHas.emit _ _ rfl rfl
  | .array elements span, start => by
      simp only [Compiling.expression, Expression.visits]
      exact check (map (expressions_record elements start .empty [] empty) fun more all allHas =>
        allHas.emit _ _ rfl rfl)
  | .index target index span, start => by
      simp only [Compiling.expression, Expression.visits]
      refine bind (expression_records target start) fun accesses first firstHas => ?_
      refine map (expression_records index _) fun more second secondHas => ?_
      exact (firstHas.append secondHas).emit _ _ rfl rfl
  | .assign target value span, start => by
      simp only [Compiling.expression, Expression.visits]
      exact assign target (expression_records value start)

theorem expressions_record : ∀ (items : List Expression) (start : Nat) (before : Fragment)
    (earlier : List Instruction), before.Accesses earlier →
    Records (fun accesses code => code.Accesses (earlier ++ accesses))
      (Compiling.expressions items start before) (Expression.visitsAll items)
  | [], start, before, earlier, has => by
      simp only [Compiling.expressions, Expression.visitsAll]
      exact Records.pure (by rwa [List.append_nil])
  | item :: items, start, before, earlier, has => by
      simp only [Compiling.expressions, Expression.visitsAll]
      refine bind (expression_records item _) fun accesses code itemHas => ?_
      refine (expressions_record items start _ _ (has.append itemHas)).weaken fun more all whole => ?_
      rwa [List.append_assoc] at whole

theorem function_records (name : Option String) (parameters : List Name) (span : Span) :
    ∀ body : Block, Records (fun accesses code => accesses = [] ∧ code.Accesses [])
      (Compiling.function name parameters span body) (body.visitsOfFunction parameters span)
  | .mk body bodySpan =>
      Records.function (statements_record .leave body 0 .empty [] empty) name parameters span
        bodySpan

theorem binding_records : ∀ (bound : Binding) (start : Nat),
    Records.Code (Compiling.binding bound start) bound.visits
  | .mk name value span, start => by
      cases value with
      | function parameters body literalSpan =>
          simp only [Compiling.binding, Binding.visits]
          refine bind_cons (Records.bound name) fun accesses symbol found => ?_
          obtain ⟨instruction, stores, rfl⟩ := found
          refine last (function_records (some name.text) parameters literalSpan body)
            fun more code whole => ?_
          obtain ⟨rfl, has⟩ := whole
          exact Records.store name stores (Records.pure (has.store stores))
      | _ =>
          simp only [Compiling.binding, Binding.visits]
          refine bind (expression_records _ start) fun accesses code has => ?_
          refine last (Records.bound name) fun more symbol found => ?_
          obtain ⟨instruction, stores, rfl⟩ := found
          refine Records.store name stores (Records.pure ?_)
          rw [List.append_nil]
          exact has.store stores

theorem block_records (ending : Ending) : ∀ (body : Block) (start : Nat),
    Records.Code (Compiling.block ending body start) body.visits
  | .mk body span, start => by
      simp only [Compiling.block, Block.visits]
      exact statements_record ending body start .empty [] empty

theorem statement_records : ∀ (first : Statement) (start : Nat),
    Records.Code (Compiling.statement first start) first.visits
  | .bind bound, start => by
      simp only [Compiling.statement, Statement.visits]
      exact binding_records bound start
  | .leave value span, start => by
      simp only [Compiling.statement]
      exact departure_records value span start
  | .expression value span, start => by
      simp only [Compiling.statement, Statement.visits]
      exact map (expression_records value start) fun accesses code has => has.emit _ _ rfl rfl

theorem departure_records : ∀ (value : Option Expression) (span : Span) (start : Nat),
    Records.Code (Compiling.departure value span start) (Statement.leave value span).visits
  | none, span, start => by
      simp only [Compiling.departure, Statement.visits]
      exact depart span (Records.pure ((single .null [] rfl rfl).emit .returnValue [] rfl rfl))
  | some value, span, start => by
      simp only [Compiling.departure, Statement.visits]
      exact depart span (map (expression_records value start) fun accesses code has =>
        has.emit _ _ rfl rfl)

theorem statements_record (ending : Ending) : ∀ (body : List Statement) (start : Nat)
    (before : Fragment) (earlier : List Instruction), before.Accesses earlier →
    Records (fun accesses code => code.Accesses (earlier ++ accesses))
      (Compiling.statements ending body start before) (Statement.visitsAll body)
  | [], start, before, earlier, has => by
      simp only [Compiling.statements, Statement.visitsAll]
      refine Records.pure ?_
      rw [List.append_nil]
      exact has.emitAll ending.widths_behindOther
  | [.expression value span], start, before, earlier, has => by
      simp only [Compiling.statements, Statement.visitsAll, Statement.visits, List.append_nil]
      exact map (expression_records value _) fun accesses code own =>
        (has.append own).emitAll ending.widths_behindExpression
  | [.leave value span], start, before, earlier, has => by
      simp only [Compiling.statements, Statement.visitsAll, List.append_nil]
      exact map (departure_records value span _) fun accesses code own =>
        (has.append own).emitAll ending.widths_behindLeave
  | [.bind bound], start, before, earlier, has => by
      simp only [Compiling.statements, Statement.visitsAll]
      refine bind (statement_records (.bind bound) _) fun accesses code own => Records.pure ?_
      rw [List.append_nil]
      exact (has.append own).emitAll ending.widths_behindOther
  | first :: second :: rest, start, before, earlier, has => by
      simp only [Compiling.statements]
      rw [Statement.visitsAll]
      refine bind (statement_records first _) fun accesses code own => ?_
      refine (statements_record ending (second :: rest) start _ _ (has.append own)).weaken
        fun more all whole => ?_
      rwa [List.append_assoc] at whole

end

/-! ## Whole programs -/

/-- The compiler gives every name of a program its lexical meaning. If it succeeds, the journal
goes through the whole program. The top level has as many slots as definitions, its stream does
with slots and builtin functions what is written on the page of the top level, and the functions
among the constants are those that have ended, each with the parameters, the slots and the
instructions that are written on its page. If the compiler fails, it is where the journal comes
to a visit that is refused. -/
theorem Compiler.compile_scoping (program : Program) :
    match Compiler.new.compile program with
    | (.ok compiled, next) => ∃ journal, Journal.start.run program.visits = .ok journal ∧
        next.scope.definitions = journal.page.log.length ∧
        compiled.code.Accesses journal.page.accesses ∧
        List.Forall₂ ClosedPage.Describes journal.closed (functionsAmong compiled.constants)
    | (.error fault, _) => Journal.start.Stops program.visits fault := by
  have recorded := statements_record .discard program.statements 0 .empty [] empty _ _
    Journal.start_describes
  simp only [compile]
  cases ran : Compiling.statements .discard program.statements 0 .empty Compiler.new with
  | error fault next =>
      rw [ran] at recorded
      exact recorded
  | ok code next =>
      rw [ran] at recorded
      obtain ⟨journal, accesses, run, describes, extended, has⟩ := recorded
      exact ⟨journal, run, describes.definitions, describes.encode extended.accesses has,
        describes.functions⟩

end MonkeyLang
