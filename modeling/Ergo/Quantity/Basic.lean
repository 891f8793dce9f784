import Ergo.NameSet
import Ergo.Quantity.Bounded

/-!
Real-valued quantities over named variables. A quotient has a number as its divisor.
-/

namespace Ergo

inductive Quantity
  | number (value : Rat)
  | var (name : String)
  | add (left right : Quantity)
  | subtract (left right : Quantity)
  | multiply (left right : Quantity)
  | divide (dividend : Quantity) (divisor : Rat)
  | negate (operand : Quantity)
  deriving DecidableEq, Repr

namespace Quantity

def isGround : Quantity → Bool
  | .number _ => true
  | .var _ => false
  | .add left right => left.isGround && right.isGround
  | .subtract left right => left.isGround && right.isGround
  | .multiply left right => left.isGround && right.isGround
  | .divide dividend _ => dividend.isGround
  | .negate operand => operand.isGround

/-- The number a quantity without variables stands for, if every step stays in range. -/
def value? : Quantity → Option Rat
  | .number value => Bounded.keep? value
  | .var _ => none
  | .add left right => do Bounded.add? (← left.value?) (← right.value?)
  | .subtract left right => do Bounded.subtract? (← left.value?) (← right.value?)
  | .multiply left right => do Bounded.multiply? (← left.value?) (← right.value?)
  | .divide dividend divisor => do Bounded.divide? (← dividend.value?) divisor
  | .negate operand => do Bounded.negate? (← operand.value?)

/-- The exact value when each variable has the value `assignment` gives it. -/
def eval (assignment : String → Rat) : Quantity → Rat
  | .number value => value
  | .var name => assignment name
  | .add left right => left.eval assignment + right.eval assignment
  | .subtract left right => left.eval assignment - right.eval assignment
  | .multiply left right => left.eval assignment * right.eval assignment
  | .divide dividend divisor => dividend.eval assignment / divisor
  | .negate operand => -operand.eval assignment

def variableOccurrences : Quantity → List String
  | .number _ => []
  | .var name => [name]
  | .add left right => left.variableOccurrences ++ right.variableOccurrences
  | .subtract left right => left.variableOccurrences ++ right.variableOccurrences
  | .multiply left right => left.variableOccurrences ++ right.variableOccurrences
  | .divide dividend _ => dividend.variableOccurrences
  | .negate operand => operand.variableOccurrences

theorem value?_eq_none_of_not_ground {quantity : Quantity}
    (notGround : quantity.isGround = false) : quantity.value? = none := by
  induction quantity with
  | number => simp [isGround] at notGround
  | var => rfl
  | add left right leftInduction rightInduction
  | subtract left right leftInduction rightInduction
  | multiply left right leftInduction rightInduction =>
      simp only [isGround, Bool.and_eq_false_iff] at notGround
      rcases notGround with leftOpen | rightOpen
      · simp [value?, leftInduction leftOpen]
      · cases leftValue : left.value? <;> simp [value?, leftValue, rightInduction rightOpen]
  | divide dividend divisor induction =>
      simp [value?, induction (by simpa [isGround] using notGround)]
  | negate operand induction =>
      simp [value?, induction (by simpa [isGround] using notGround)]

end Quantity

end Ergo
