import Ergo.Quantity.Basic
import Mathlib.Algebra.Field.Rat
import Mathlib.Data.Rat.Lemmas

/-!
Bounded arithmetic is exact. An operation that is not refused has the rational result, which is
usable, and so a quantity that has a value within bounds has its exact value.
-/

namespace Ergo.Bounded

open Ergo.Language

variable {left right value : Rat}

theorem eq_of_keep? {kept : Rat} (found : keep? value = some kept) :
    kept = value ∧ inRange kept = true := by
  obtain ⟨rfl, usable⟩ := inRange_of_keep? found
  exact ⟨rfl, usable⟩

/-- The numerator over a common denominator is the number times that denominator. -/
theorem cast_numerator_mul {common : Nat} (divides : value.den ∣ common) :
    ((value.num * (common / value.den : Nat) : Int) : Rat) = value * common := by
  obtain ⟨factor, rfl⟩ := divides
  rw [Nat.mul_div_cancel_left factor value.den_pos]
  push_cast
  rw [← mul_assoc, Rat.mul_den_eq_num]

theorem eq_of_overCommonDenominator? {join : Int → Int → Int} {joined : Rat → Rat → Rat}
    (cast_join : ∀ first second : Int, (join first second : Rat) = joined first second)
    (join_mul : ∀ first second scale : Rat,
      joined (first * scale) (second * scale) = joined first second * scale)
    (found : overCommonDenominator? join left right = some value) :
    value = joined left right ∧ inRange value = true := by
  simp only [overCommonDenominator?] at found
  split at found
  · obtain ⟨rfl, usable⟩ := inRange_of_keep? found
    refine ⟨?_, usable⟩
    have common_ne_zero : (left.den.lcm right.den : Rat) ≠ 0 :=
      Nat.cast_ne_zero.mpr (Nat.lcm_ne_zero left.den_nz right.den_nz)
    rw [Rat.mkRat_eq_div, cast_join, cast_numerator_mul (Nat.dvd_lcm_left _ _),
      cast_numerator_mul (Nat.dvd_lcm_right _ _), join_mul,
      mul_div_cancel_right₀ _ common_ne_zero]
  · cases found

theorem eq_of_add? (found : add? left right = some value) :
    value = left + right ∧ inRange value = true :=
  eq_of_overCommonDenominator? (by simp) (by simp [add_mul]) found

theorem eq_of_subtract? (found : subtract? left right = some value) :
    value = left - right ∧ inRange value = true :=
  eq_of_overCommonDenominator? (by simp) (by simp [sub_mul]) found

theorem eq_of_divide? (found : divide? left right = some value) :
    value = left / right ∧ inRange value = true := by
  unfold divide? at found
  split at found
  · cases found
  · exact eq_of_keep? found

theorem inRange_iff :
    inRange value = true ↔ value.num.natAbs ≤ maxMagnitude ∧ value.den ≤ maxMagnitude := by
  simp [inRange]

/-- The reciprocal of a usable number is usable, unless the number is zero. -/
theorem inRange_inv (nonzero : value ≠ 0) (usable : inRange value = true) :
    inRange value⁻¹ = true := by
  have numerator : value.num ≠ 0 := Rat.num_ne_zero.mpr nonzero
  rw [inRange_iff] at usable ⊢
  simpa [Rat.num_inv, Rat.den_inv, numerator, Int.natAbs_mul, Int.natAbs_sign] using usable.symm

end Ergo.Bounded

namespace Ergo.Quantity

theorem eval_of_value? {quantity : Quantity} {value : Rat} (found : quantity.value? = some value)
    (assignment : String → Rat) :
    value = quantity.eval assignment ∧ Bounded.inRange value = true := by
  induction quantity generalizing value with
  | number => exact Bounded.eq_of_keep? found
  | var => cases found
  | add left right leftInduction rightInduction =>
      simp only [value?, Option.bind_eq_bind, Option.bind_eq_some_iff] at found
      obtain ⟨leftValue, leftFound, rightValue, rightFound, found⟩ := found
      rw [eval, ← (leftInduction leftFound).1, ← (rightInduction rightFound).1]
      exact Bounded.eq_of_add? found
  | subtract left right leftInduction rightInduction =>
      simp only [value?, Option.bind_eq_bind, Option.bind_eq_some_iff] at found
      obtain ⟨leftValue, leftFound, rightValue, rightFound, found⟩ := found
      rw [eval, ← (leftInduction leftFound).1, ← (rightInduction rightFound).1]
      exact Bounded.eq_of_subtract? found
  | multiply left right leftInduction rightInduction =>
      simp only [value?, Option.bind_eq_bind, Option.bind_eq_some_iff] at found
      obtain ⟨leftValue, leftFound, rightValue, rightFound, found⟩ := found
      rw [eval, ← (leftInduction leftFound).1, ← (rightInduction rightFound).1]
      exact Bounded.eq_of_keep? found
  | divide dividend divisor induction =>
      simp only [value?, Option.bind_eq_bind, Option.bind_eq_some_iff] at found
      obtain ⟨dividendValue, dividendFound, found⟩ := found
      rw [eval, ← (induction dividendFound).1]
      exact Bounded.eq_of_divide? found
  | negate operand induction =>
      simp only [value?, Option.bind_eq_bind, Option.bind_eq_some_iff] at found
      obtain ⟨operandValue, operandFound, found⟩ := found
      rw [eval, ← (induction operandFound).1]
      exact Bounded.eq_of_keep? found

theorem inRange_of_value? {quantity : Quantity} {value : Rat}
    (found : quantity.value? = some value) : Bounded.inRange value = true :=
  (eval_of_value? found fun _ => 0).2

end Ergo.Quantity
