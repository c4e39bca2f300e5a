/-!
# Work that changes a state

The compiler, the machine and the evaluator all are work that changes a state and may fail.
These facts take such work apart into its steps, as well as work that only may fail.
-/

set_option autoImplicit false

namespace MonkeyLang.Stateful

variable {ε σ α β : Type} {state next : σ}

theorem bind_of_ok {work : EStateM ε σ α} {rest : α → EStateM ε σ β} {result : α}
    (ran : work state = .ok result next) : (work >>= rest) state = rest result next := by
  show EStateM.bind work rest state = _
  rw [EStateM.bind, ran]

theorem bind_of_error {work : EStateM ε σ α} {rest : α → EStateM ε σ β} {fault : ε}
    (ran : work state = .error fault next) : (work >>= rest) state = .error fault next := by
  show EStateM.bind work rest state = _
  rw [EStateM.bind, ran]

theorem bind_eq_ok {work : EStateM ε σ α} {rest : α → EStateM ε σ β} {result : β} :
    (work >>= rest) state = .ok result next ↔
      ∃ first middle, work state = .ok first middle ∧ rest first middle = .ok result next := by
  cases ran : work state with
  | ok first middle =>
      rw [bind_of_ok ran]
      constructor
      · exact fun rested => ⟨first, middle, rfl, rested⟩
      · rintro ⟨_, _, ⟨⟩, rested⟩
        exact rested
  | error fault middle =>
      rw [bind_of_error ran]
      simp

theorem pure_eq_ok {value result : α} :
    (pure value : EStateM ε σ α) state = .ok result next ↔ value = result ∧ state = next := by
  show EStateM.Result.ok value state = _ ↔ _
  simp

theorem throw_ne_ok {fault : ε} {result : α} :
    (throw fault : EStateM ε σ α) state ≠ .ok result next := by
  intro equal
  cases equal

theorem get_eq_ok {result : σ} :
    (get : EStateM ε σ σ) state = .ok result next ↔ state = result ∧ state = next := by
  show EStateM.Result.ok state state = _ ↔ _
  simp

theorem modify_eq_ok {change : σ → σ} {result : PUnit} :
    (modify change : EStateM ε σ PUnit) state = .ok result next ↔ change state = next := by
  show EStateM.Result.ok () (change state) = _ ↔ _
  simp

theorem get_bind (rest : σ → EStateM ε σ α) (state : σ) :
    ((get : EStateM ε σ σ) >>= rest) state = rest state state := rfl

theorem modify_bind (change : σ → σ) (rest : PUnit → EStateM ε σ α) (state : σ) :
    ((modify change : EStateM ε σ PUnit) >>= rest) state = rest () (change state) := rfl

end MonkeyLang.Stateful

namespace MonkeyLang.Failing

variable {ε α β : Type}

theorem bind_eq_ok {work : Except ε α} {rest : α → Except ε β} {result : β} :
    (work >>= rest) = .ok result ↔ ∃ first, work = .ok first ∧ rest first = .ok result := by
  cases work with
  | error fault =>
      constructor
      · intro failed
        cases failed
      · rintro ⟨_, ⟨⟩, _⟩
  | ok value =>
      constructor
      · exact fun rested => ⟨value, rfl, rested⟩
      · rintro ⟨_, ⟨⟩, rested⟩
        exact rested

end MonkeyLang.Failing
