import Ergo.Language.Grammar
import Ergo.Language.Keyword
import Ergo.Quantity.Basic

/-!
Reading quantities. A product needs a factor without variables and a divisor must be a number
other than zero, so what is read is affine in its variables; and no part without variables leaves
the range of numbers.
-/

namespace Ergo.Quantity

open Ergo.Language

/-- Refuses a quantity without variables whose value leaves the range of numbers. -/
def checked (position : Nat) (quantity : Quantity) : Except ParseError Quantity :=
  if quantity.isGround && quantity.value?.isNone then .error ⟨position, .valueOutOfRange⟩
  else .ok quantity

/-- The number by which `divisor`, read at `position`, divides. -/
def divisorValue (position : Nat) (divisor : Quantity) : Except ParseError Rat :=
  match divisor.value? with
  | none => .error ⟨position, .divisionByVariable⟩
  | some value => if value = 0 then .error ⟨position, .divisionByZero⟩ else .ok value

def ofExpression : Expression → Except ParseError Quantity
  | .number position value => checked position (.number value)
  | .name position text =>
      if isReserved text then .error ⟨position, .keywordAsNumber text⟩ else .ok (.var text)
  | .negate position operand => do
      let operand ← ofExpression operand
      checked position (.negate operand)
  | .operate position operator left right => do
      let leftQuantity ← ofExpression left
      let rightQuantity ← ofExpression right
      match operator with
      | .divide =>
          let divisor ← divisorValue right.position rightQuantity
          checked position (.divide leftQuantity divisor)
      | .add => checked position (.add leftQuantity rightQuantity)
      | .subtract => checked position (.subtract leftQuantity rightQuantity)
      | .multiply =>
          if leftQuantity.isGround || rightQuantity.isGround then
            checked position (.multiply leftQuantity rightQuantity)
          else throw ⟨position, .productOfVariables⟩
  | .call position function _ => .error ⟨position, .notNumericFunction function⟩
  | .list position _ => .error ⟨position, .unexpectedList⟩
  | .compare position _ _ _ => .error ⟨position, .comparisonAsNumber⟩

def parse (text : String) : Except ParseError Quantity := do
  let expression ← parseExpression text
  ofExpression expression

end Ergo.Quantity
