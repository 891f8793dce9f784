import Ergo.Constraint.Basic
import Ergo.Quantity.Reader

/-!
Reading constraints. A text holds one or more constraints between commas.
-/

namespace Ergo.Constraint

open Ergo.Language

def ofConnective (position : Nat) (function : String) :
    Option Keyword → List Constraint → Except ParseError Constraint
  | some .conjunction, parts => .ok (.and parts)
  | some .disjunction, parts => .ok (.or parts)
  | some .negation, [operand] => .ok (.not operand)
  | some .implication, [premise, consequent] => .ok (.implies premise consequent)
  | _, parts => .error ⟨position, .wrongArgumentCount function parts.length⟩

def isConnective : Option Keyword → Bool
  | some .conjunction | some .disjunction | some .negation | some .implication => true
  | _ => false

mutual
def ofExpression : Expression → Except ParseError Constraint
  | .compare _ comparison left right => do
      let left ← Quantity.ofExpression left
      let right ← Quantity.ofExpression right
      return .compare comparison left right
  | .name position text =>
      match Keyword.ofText? text with
      | some .truth => .ok (.constant true)
      | some .falsity => .ok (.constant false)
      | _ => .error ⟨position, .expectedConstraint⟩
  | .call position function arguments =>
      let keyword := Keyword.ofText? function
      if isConnective keyword then do
        let parts ← ofExpressions arguments
        ofConnective position function keyword parts
      else .error ⟨position, .unknownFunction function⟩
  | expression => .error ⟨expression.position, .expectedConstraint⟩

def ofExpressions : List Expression → Except ParseError (List Constraint)
  | [] => .ok []
  | part :: parts => do
      let part ← ofExpression part
      let parts ← ofExpressions parts
      return part :: parts
end

/-- Reads a text that is one or more constraints between commas. -/
def parseList (text : String) : Except ParseError (List Constraint) := do
  let expressions ← parseExpressions text
  ofExpressions expressions

end Ergo.Constraint
