import Ergo.Formula.Basic
import Ergo.Language.Grammar
import Ergo.Language.Keyword

/-!
Reading formulas. An expression becomes a formula when its calls are connectives, quantifiers or
predicates over terms. A name is a variable where an enclosing quantifier binds it, and a constant
elsewhere.
-/

namespace Ergo

open Ergo.Language

def Term.ofExpression (bound : List String) : Expression → Except ParseError Term
  | .name position text =>
      if isReserved text then .error ⟨position, .keywordAsTerm text⟩
      else if bound.contains text then .ok (.var text)
      else .ok (.constant text)
  | expression => .error ⟨expression.position, .expectedTerm⟩

def boundName : Expression → Except ParseError String
  | .name position text =>
      if isReserved text then .error ⟨position, .expectedVariableName⟩ else .ok text
  | expression => .error ⟨expression.position, .expectedVariableName⟩

/-- Reads the variables of a quantifier: a non-empty list of names, or one name. -/
def boundNames : Expression → Except ParseError (List String)
  | .list position items =>
      if items.isEmpty then .error ⟨position, .noVariables⟩ else items.mapM boundName
  | .name position text => do
      let name ← boundName (.name position text)
      return [name]
  | expression => .error ⟨expression.position, .expectedVariableList⟩

namespace Formula

mutual
/-- Reads a formula inside quantifiers that bind `bound`. -/
def ofExpression (bound : List String) : Expression → Except ParseError Formula
  | .name position text =>
      match Keyword.ofText? text with
      | some .truth => .ok .truth
      | some .falsity => .ok .falsity
      | _ => .error ⟨position, .termAsFormula text⟩
  | .call position function arguments =>
      match Keyword.ofText? function, arguments with
      | some .universal, [binders, body] => do
          let names ← boundNames binders
          let body ← ofExpression (bound ++ names) body
          return .forAll names body
      | some .existential, [binders, body] => do
          let names ← boundNames binders
          let body ← ofExpression (bound ++ names) body
          return .forSome names body
      | some .negation, [operand] => do
          let operand ← ofExpression bound operand
          return .not operand
      | some .implication, [premise, consequent] => do
          let premise ← ofExpression bound premise
          let consequent ← ofExpression bound consequent
          return .implies premise consequent
      | some .conjunction, parts => do
          let parts ← ofExpressions bound parts
          return .and parts
      | some .disjunction, parts => do
          let parts ← ofExpressions bound parts
          return .or parts
      | some .universal, _ => .error ⟨position, .wrongOperands function .binderAndBody⟩
      | some .existential, _ => .error ⟨position, .wrongOperands function .binderAndBody⟩
      | some .negation, _ => .error ⟨position, .wrongOperands function .one⟩
      | some .implication, _ => .error ⟨position, .wrongOperands function .two⟩
      | some .truth, _ => .error ⟨position, .keywordAsFunction function⟩
      | some .falsity, _ => .error ⟨position, .keywordAsFunction function⟩
      | none, terms => do
          let terms ← terms.mapM (Term.ofExpression bound)
          return .atom function terms
  | .compare position comparison left right => do
      let left ← Term.ofExpression bound left
      let right ← Term.ofExpression bound right
      match comparison with
      | .equal => return .equal left right
      | .notEqual => return .not (.equal left right)
      | comparison => throw ⟨position, .orderBetweenObjects comparison⟩
  | expression => .error ⟨expression.position, .expectedFormula⟩

def ofExpressions (bound : List String) : List Expression → Except ParseError (List Formula)
  | [] => .ok []
  | part :: parts => do
      let part ← ofExpression bound part
      let parts ← ofExpressions bound parts
      return part :: parts
end

def parse (text : String) : Except ParseError Formula := do
  let expression ← parseExpression text
  ofExpression [] expression

end Formula

end Ergo
