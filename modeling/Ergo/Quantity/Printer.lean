import Ergo.Quantity.Basic

/-!
The written form of numbers and quantities. Every operation is written inside parentheses, except
that the outermost sum, difference or product may stand bare.
-/

namespace Ergo

/-- A rational number in lowest terms, without a denominator of one. -/
def renderRational (value : Rat) : String :=
  if value.den == 1 then toString value.num
  else toString value.num ++ "/" ++ toString value.den

namespace Quantity

def render : Quantity → String
  | .number value => renderRational value
  | .var name => name
  | .add left right => "(" ++ left.render ++ " + " ++ right.render ++ ")"
  | .subtract left right => "(" ++ left.render ++ " - " ++ right.render ++ ")"
  | .multiply left right => "(" ++ left.render ++ " * " ++ right.render ++ ")"
  | .divide dividend divisor => "(" ++ dividend.render ++ " / " ++ renderRational divisor ++ ")"
  | .negate operand => "-" ++ operand.render

/-- The written form without the parentheses around an outermost sum, difference or product. -/
def renderBare : Quantity → String
  | .add left right => left.render ++ " + " ++ right.render
  | .subtract left right => left.render ++ " - " ++ right.render
  | .multiply left right => left.render ++ " * " ++ right.render
  | quantity => quantity.render

end Quantity

end Ergo
