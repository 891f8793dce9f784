import Ergo.Constraint.Basic
import Ergo.Formula.Printer
import Ergo.Quantity.Printer

/-!
The written form of constraints.
-/

namespace Ergo.Constraint

open Ergo.Language

def renderBool (value : Bool) : String :=
  if value then Keyword.truth.text else Keyword.falsity.text

mutual
def render : Constraint → String
  | .constant value => renderBool value
  | .compare comparison left right =>
      left.render ++ " " ++ comparison.symbol ++ " " ++ right.render
  | .and parts => renderCall Keyword.conjunction.text (renderParts parts)
  | .or parts => renderCall Keyword.disjunction.text (renderParts parts)
  | .not operand => renderCall Keyword.negation.text [operand.render]
  | .implies premise consequent =>
      renderCall Keyword.implication.text [premise.render, consequent.render]

def renderParts : List Constraint → List String
  | [] => []
  | part :: parts => part.render :: renderParts parts
end

end Ergo.Constraint
