import Ergo.Quantity.Basic

/-!
Simplification: parts without variables become numbers, and additions of zero, products with zero
or one, quotients by one and double negatives disappear. Variables stay as they are.
-/

namespace Ergo.Quantity

def simpleAdd (left right : Quantity) : Quantity :=
  if left = .number 0 then right
  else if right = .number 0 then left
  else .add left right

def simpleSubtract (left right : Quantity) : Quantity :=
  if right = .number 0 then left else .subtract left right

def simpleMultiply (left right : Quantity) : Quantity :=
  if left = .number 0 ∨ right = .number 0 then .number 0
  else if left = .number 1 then right
  else if right = .number 1 then left
  else .multiply left right

def simpleDivide (dividend : Quantity) (divisor : Rat) : Quantity :=
  if divisor = 1 then dividend else .divide dividend divisor

def simpleNegate : Quantity → Quantity
  | .negate operand => operand
  | quantity => .negate quantity

/-- A quantity as a number where it has a value, and otherwise `simplified`. -/
def foldOr (quantity simplified : Quantity) : Quantity :=
  match quantity.value? with
  | some value => .number value
  | none => simplified

def simplify : Quantity → Quantity
  | .number value => .number value
  | .var name => .var name
  | .add left right =>
      foldOr (.add left right) (simpleAdd left.simplify right.simplify)
  | .subtract left right =>
      foldOr (.subtract left right) (simpleSubtract left.simplify right.simplify)
  | .multiply left right =>
      foldOr (.multiply left right) (simpleMultiply left.simplify right.simplify)
  | .divide dividend divisor =>
      foldOr (.divide dividend divisor) (simpleDivide dividend.simplify divisor)
  | .negate operand => foldOr (.negate operand) (simpleNegate operand.simplify)

end Ergo.Quantity
