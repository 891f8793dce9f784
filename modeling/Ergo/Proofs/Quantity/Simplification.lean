import Ergo.Proofs.Quantity.Bounded
import Ergo.Quantity.Simplify

/-!
Simplification keeps values. Each rule that drops or folds a part gives a quantity of the same value at
every assignment, and so does the whole traversal (`eval_simplify`). What has no variables stays so.
-/

namespace Ergo.Quantity

variable {assignment : String → Rat} {left right quantity simplified : Quantity}

/-! ## Values -/

theorem eval_simpleAdd :
    (simpleAdd left right).eval assignment = left.eval assignment + right.eval assignment := by
  unfold simpleAdd
  split
  · next isZero => rw [isZero, eval, zero_add]
  · split
    · next isZero => rw [isZero, eval, add_zero]
    · rfl

theorem eval_simpleSubtract :
    (simpleSubtract left right).eval assignment = left.eval assignment - right.eval assignment := by
  unfold simpleSubtract
  split
  · next isZero => rw [isZero, eval, sub_zero]
  · rfl

/-- A product with zero is zero, whatever variables the other factor has. -/
theorem eval_simpleMultiply :
    (simpleMultiply left right).eval assignment = left.eval assignment * right.eval assignment := by
  unfold simpleMultiply
  split
  · next isZero =>
      rcases isZero with isZero | isZero
      · rw [isZero, eval, zero_mul]
      · rw [isZero, eval, mul_zero]
  · split
    · next isOne => rw [isOne, eval, one_mul]
    · split
      · next isOne => rw [isOne, eval, mul_one]
      · rfl

theorem eval_simpleDivide (divisor : Rat) :
    (simpleDivide left divisor).eval assignment = left.eval assignment / divisor := by
  unfold simpleDivide
  split
  · next isOne => rw [isOne, div_one]
  · rfl

theorem eval_simpleNegate : (simpleNegate quantity).eval assignment = -quantity.eval assignment := by
  cases quantity with
  | negate operand => rw [simpleNegate, eval, neg_neg]
  | _ => rfl

theorem eval_foldOr (same : simplified.eval assignment = quantity.eval assignment) :
    (foldOr quantity simplified).eval assignment = quantity.eval assignment := by
  unfold foldOr
  split
  · next value found => exact (eval_of_value? found assignment).1
  · exact same

theorem eval_simplify (assignment : String → Rat) (quantity : Quantity) :
    quantity.simplify.eval assignment = quantity.eval assignment := by
  induction quantity with
  | number value => rfl
  | var name => rfl
  | add left right leftInduction rightInduction =>
      apply eval_foldOr
      rw [eval_simpleAdd, leftInduction, rightInduction, eval]
  | subtract left right leftInduction rightInduction =>
      apply eval_foldOr
      rw [eval_simpleSubtract, leftInduction, rightInduction, eval]
  | multiply left right leftInduction rightInduction =>
      apply eval_foldOr
      rw [eval_simpleMultiply, leftInduction, rightInduction, eval]
  | divide dividend divisor induction =>
      apply eval_foldOr
      rw [eval_simpleDivide, induction, eval]
  | negate operand induction =>
      apply eval_foldOr
      rw [eval_simpleNegate, induction, eval]

/-! ## Variables -/

theorem isGround_foldOr (ground : simplified.isGround = true) :
    (foldOr quantity simplified).isGround = true := by
  unfold foldOr
  split
  · rfl
  · exact ground

theorem isGround_simplify (ground : quantity.isGround = true) : quantity.simplify.isGround = true := by
  induction quantity with
  | number value => rfl
  | var name => cases ground
  | add left right leftInduction rightInduction =>
      obtain ⟨leftGround, rightGround⟩ := Bool.and_eq_true_iff.mp ground
      apply isGround_foldOr
      unfold simpleAdd
      split_ifs <;> simp [isGround, leftInduction leftGround, rightInduction rightGround]
  | subtract left right leftInduction rightInduction =>
      obtain ⟨leftGround, rightGround⟩ := Bool.and_eq_true_iff.mp ground
      apply isGround_foldOr
      unfold simpleSubtract
      split_ifs <;> simp [isGround, leftInduction leftGround, rightInduction rightGround]
  | multiply left right leftInduction rightInduction =>
      obtain ⟨leftGround, rightGround⟩ := Bool.and_eq_true_iff.mp ground
      apply isGround_foldOr
      unfold simpleMultiply
      split_ifs <;> simp [isGround, leftInduction leftGround, rightInduction rightGround]
  | divide dividend divisor induction =>
      apply isGround_foldOr
      unfold simpleDivide
      split_ifs <;> exact induction ground
  | negate operand induction =>
      apply isGround_foldOr
      have inner := induction ground
      unfold simpleNegate
      split
      · next isNegative =>
          rw [isNegative] at inner
          exact inner
      · exact inner

end Ergo.Quantity
