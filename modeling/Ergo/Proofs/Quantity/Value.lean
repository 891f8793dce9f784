import Ergo.Proofs.Quantity.Bounded
import Ergo.Proofs.Results
import Ergo.Quantity.Reader
import Mathlib.Data.Rat.Cast.CharZero

/-!
Values of quantities in any field, and the quantities that are read: in every product that is read
one factor has no variables, and no number leaves the bounds.
-/

namespace Ergo.Quantity

open Ergo.Language

/-! ## Values -/

section Values

variable {K : Type*} [Field K]

/-- The value when each variable has the value `assignment` gives it. -/
def valueOver (assignment : String → K) : Quantity → K
  | .number value => value
  | .var name => assignment name
  | .add left right => left.valueOver assignment + right.valueOver assignment
  | .subtract left right => left.valueOver assignment - right.valueOver assignment
  | .multiply left right => left.valueOver assignment * right.valueOver assignment
  | .divide dividend divisor => dividend.valueOver assignment / divisor
  | .negate operand => -operand.valueOver assignment

theorem valueOver_cast [CharZero K] (assignment : String → Rat) (quantity : Quantity) :
    quantity.valueOver (fun name => (assignment name : K)) = (quantity.eval assignment : K) := by
  induction quantity with
  | number | var => simp [valueOver, eval]
  | add left right leftInduction rightInduction
  | subtract left right leftInduction rightInduction
  | multiply left right leftInduction rightInduction =>
      simp [valueOver, eval, leftInduction, rightInduction]
  | divide dividend divisor induction => simp [valueOver, eval, induction]
  | negate operand induction => simp [valueOver, eval, induction]

@[simp] theorem valueOver_rat (assignment : String → Rat) (quantity : Quantity) :
    quantity.valueOver assignment = quantity.eval assignment := by
  simpa using quantity.valueOver_cast (K := Rat) assignment

end Values

/-! ## Quantities that are read -/

section Read

variable {quantity : Quantity} {position : Nat}

/-- Whether a quantity without variables has a value within bounds. -/
def HasValue (quantity : Quantity) : Prop :=
  quantity.isGround = true → quantity.value?.isSome = true

/-- The quantities that reading gives: no operation leaves the bounds, a product has a factor without
variables, and a divisor is a usable number other than zero. -/
inductive WellFormed : Quantity → Prop
  | number {value : Rat} (hasValue : HasValue (.number value)) : WellFormed (.number value)
  | var {name : String} (unreserved : isReserved name = false) : WellFormed (.var name)
  | add {left right : Quantity} (leftFormed : left.WellFormed) (rightFormed : right.WellFormed)
      (hasValue : HasValue (.add left right)) : WellFormed (.add left right)
  | subtract {left right : Quantity} (leftFormed : left.WellFormed)
      (rightFormed : right.WellFormed) (hasValue : HasValue (.subtract left right)) :
      WellFormed (.subtract left right)
  | multiply {left right : Quantity} (leftFormed : left.WellFormed)
      (rightFormed : right.WellFormed)
      (oneGround : left.isGround = true ∨ right.isGround = true)
      (hasValue : HasValue (.multiply left right)) : WellFormed (.multiply left right)
  | divide {dividend : Quantity} {divisor : Rat} (dividendFormed : dividend.WellFormed)
      (nonzero : divisor ≠ 0) (usable : Bounded.inRange divisor = true)
      (hasValue : HasValue (.divide dividend divisor)) : WellFormed (.divide dividend divisor)
  | negate {operand : Quantity} (operandFormed : operand.WellFormed)
      (hasValue : HasValue (.negate operand)) : WellFormed (.negate operand)

theorem of_checked {final : Quantity} (read : checked position quantity = .ok final) :
    final = quantity ∧ quantity.HasValue := by
  unfold checked at read
  split at read
  · cases read
  · next accepted =>
      cases read
      exact ⟨rfl, fun ground => by simpa [ground, Option.isSome_iff_ne_none] using accepted⟩

theorem of_divisorValue {value : Rat} (read : divisorValue position quantity = .ok value) :
    value ≠ 0 ∧ quantity.value? = some value := by
  unfold divisorValue at read
  split at read
  · cases read
  · next found =>
      split at read
      · cases read
      · next nonzero =>
          cases read
          exact ⟨nonzero, found⟩

theorem wellFormed_of_ofExpression {expression : Expression}
    (read : ofExpression expression = .ok quantity) : quantity.WellFormed := by
  induction expression using Expression.inductionOn generalizing quantity with
  | name position text =>
      rw [ofExpression] at read
      split at read
      · cases read
      · next unreserved =>
          cases read
          exact .var (by simpa using unreserved)
  | number position value =>
      obtain ⟨rfl, hasValue⟩ := of_checked read
      exact .number hasValue
  | negate position operand induction =>
      rw [ofExpression, bind_eq_ok_iff] at read
      obtain ⟨inner, innerRead, read⟩ := read
      obtain ⟨rfl, hasValue⟩ := of_checked read
      exact .negate (induction innerRead) hasValue
  | operate position operator left right leftInduction rightInduction =>
      simp only [ofExpression, bind_eq_ok_iff] at read
      obtain ⟨leftQuantity, leftRead, rightQuantity, rightRead, read⟩ := read
      have leftFormed := leftInduction leftRead
      have rightFormed := rightInduction rightRead
      cases operator with
      | add =>
          obtain ⟨rfl, hasValue⟩ := of_checked read
          exact .add leftFormed rightFormed hasValue
      | subtract =>
          obtain ⟨rfl, hasValue⟩ := of_checked read
          exact .subtract leftFormed rightFormed hasValue
      | multiply =>
          dsimp only at read
          split at read
          · next oneGround =>
              obtain ⟨rfl, hasValue⟩ := of_checked read
              exact .multiply leftFormed rightFormed (by simpa using oneGround) hasValue
          · cases read
      | divide =>
          obtain ⟨divisor, divisorRead, read⟩ := bind_eq_ok_iff.mp read
          obtain ⟨nonzero, found⟩ := of_divisorValue divisorRead
          obtain ⟨rfl, hasValue⟩ := of_checked read
          exact .divide leftFormed nonzero (inRange_of_value? found) hasValue
  | list | call | compare => cases read

/-- Whether every product has a factor without variables. -/
def IsAffine : Quantity → Prop
  | .number _ | .var _ => True
  | .add left right | .subtract left right => left.IsAffine ∧ right.IsAffine
  | .multiply left right =>
      (left.isGround = true ∨ right.isGround = true) ∧ left.IsAffine ∧ right.IsAffine
  | .divide dividend _ => dividend.IsAffine
  | .negate operand => operand.IsAffine

theorem WellFormed.isAffine (wellFormed : quantity.WellFormed) : quantity.IsAffine := by
  induction wellFormed with
  | number | var => trivial
  | add _ _ _ leftInduction rightInduction | subtract _ _ _ leftInduction rightInduction =>
      exact ⟨leftInduction, rightInduction⟩
  | multiply _ _ oneGround _ leftInduction rightInduction =>
      exact ⟨oneGround, leftInduction, rightInduction⟩
  | divide _ _ _ _ induction | negate _ _ induction => exact induction

end Read

end Ergo.Quantity
