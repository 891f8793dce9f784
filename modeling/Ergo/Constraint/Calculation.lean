import Ergo.Constraint.Printer
import Ergo.Constraint.Reader
import Ergo.Quantity.Simplify

/-!
Calculation: a quantity or a single comparison is simplified and written after the text it was
read from. A comparison between numbers becomes its truth value.
-/

namespace Ergo.Calculation

open Ergo.Language

def renderComparison (comparison : Comparison) (left right : Quantity) : String :=
  match left, right with
  | .number leftValue, .number rightValue =>
      Constraint.renderBool (comparison.holds leftValue rightValue)
  | left, right => left.renderBare ++ " " ++ comparison.symbol ++ " " ++ right.renderBare

def ofExpression (expression : Expression) : Except ParseError String :=
  match expression with
  | .compare _ comparison left right => do
      let left ← Quantity.ofExpression left
      let right ← Quantity.ofExpression right
      return renderComparison comparison left.simplify right.simplify
  | expression => do
      let quantity ← Quantity.ofExpression expression
      return quantity.simplify.renderBare

/-- The simplified form of the quantity or comparison that a text holds. -/
def simplified (text : String) : Except ParseError String := do
  let expression ← parseExpression text
  ofExpression expression

def message (text : String) : String :=
  match simplified text with
  | .ok result => text ++ " = " ++ result
  | .error _ => "Invalid equation"

end Ergo.Calculation
