import MonkeyLang.Number.Written
import MonkeyLang.Proofs.Number.Digits

/-!
# The characters of written numbers

Digits, a point, signs and the letter of an exponent are all the characters that numbers are written
with. So any other character is in none of their forms, be it a line feed or a blank.
-/

set_option autoImplicit false

namespace MonkeyLang.Number

open Decimal (digitsOf)

variable {c : Char} (other : c.isDigit = false)

section

include other

theorem notMem_digitsOf (number : Nat) : c ∉ digitsOf number := by
  intro member
  exact Bool.false_ne_true (other.symm.trans (isDigit_of_mem_digitsOf member))

theorem notMem_significant (decimal : Decimal) : c ∉ decimal.significant.1 := by
  intro member
  rw [Decimal.significant, List.mem_reverse] at member
  have digit := (List.dropWhile_suffix _).subset member
  exact notMem_digitsOf other _ (List.mem_reverse.mp digit)

theorem notMem_zeros (count : Nat) : c ∉ zeros count := by
  intro member
  obtain rfl := List.eq_of_mem_replicate member
  cases other

end

theorem notMem_signed (no_minus : c ≠ '-') (negative : Bool) {text : List Char} (none : c ∉ text) :
    c ∉ signed negative text := by
  cases negative with
  | false => exact none
  | true => exact List.not_mem_cons_of_ne_of_not_mem no_minus none

section

variable (no_point : c ≠ '.') {digits : List Char} (none : c ∉ digits)

include other no_point none

theorem notMem_positional (point : Int) : c ∉ positional digits point := by
  have no_zero : c ≠ '0' := by
    rintro rfl
    cases other
  have taken (size : Nat) : c ∉ digits.take size := fun member =>
    none (List.mem_of_mem_take member)
  have dropped (size : Nat) : c ∉ digits.drop size := fun member =>
    none (List.mem_of_mem_drop member)
  rw [positional]
  split
  · simp [notMem_zeros other, none, no_point, no_zero]
  · split
    · simp [notMem_zeros other, none]
    · simp [taken, dropped, no_point]

variable (no_letter : c ≠ 'e') (no_minus : c ≠ '-') (no_plus : c ≠ '+')

include no_letter no_minus no_plus

theorem notMem_scientific (point : Int) : c ∉ scientific digits point := by
  have exponent (value : Int) : c ∉ exponentPart value := by
    have no_sign : c ≠ if value < 0 then '-' else '+' := by
      split
      · exact no_minus
      · exact no_plus
    exact List.not_mem_cons_of_ne_of_not_mem no_letter
      (List.not_mem_cons_of_ne_of_not_mem no_sign (notMem_digitsOf other _))
  rw [scientific.eq_def]
  split
  · exact List.not_mem_nil
  · next digit =>
    have first : c ≠ digit := fun is => none (is ▸ List.mem_cons_self)
    exact List.not_mem_cons_of_ne_of_not_mem first (exponent _)
  · next digit more _ =>
    have first : c ≠ digit := fun is => none (is ▸ List.mem_cons_self)
    have behind : c ∉ more := fun member => none (List.mem_cons_of_mem digit member)
    refine List.not_mem_cons_of_ne_of_not_mem first
      (List.not_mem_cons_of_ne_of_not_mem no_point fun member => ?_)
    exact (List.mem_append.1 member).elim behind (exponent _)

theorem notMem_dataForm (point : Int) : c ∉ dataForm digits point := by
  have no_zero : c ≠ '0' := by
    rintro rfl
    cases other
  have placed := notMem_positional other no_point none point
  rw [dataForm]
  split
  · exact notMem_scientific other no_point none no_letter no_minus no_plus point
  · dsimp only
    split
    · exact placed
    · simp [placed, no_point, no_zero]

end

end MonkeyLang.Number
