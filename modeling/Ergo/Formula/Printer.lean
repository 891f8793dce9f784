import Ergo.Formula.Basic
import Ergo.Language.Keyword

/-!
The written form of formulas. Connectives and quantifiers are written as calls, and the variables
of a quantifier as a bracketed list.
-/

namespace Ergo

open Ergo.Language

def commaSeparated (items : List String) : String :=
  ", ".intercalate items

def Term.render (term : Term) : String :=
  term.name

def renderCall (function : String) (arguments : List String) : String :=
  function ++ "(" ++ commaSeparated arguments ++ ")"

def renderAtom (predicate : String) (arguments : List Term) : String :=
  renderCall predicate (arguments.map Term.render)

def renderVariables (binders : List String) : String :=
  "[" ++ commaSeparated binders ++ "]"

namespace Formula

mutual
def render : Formula → String
  | .truth => Keyword.truth.text
  | .falsity => Keyword.falsity.text
  | .atom predicate arguments => renderAtom predicate arguments
  | .equal left right => left.render ++ " == " ++ right.render
  | .not operand => renderCall Keyword.negation.text [operand.render]
  | .and parts => renderCall Keyword.conjunction.text (renderParts parts)
  | .or parts => renderCall Keyword.disjunction.text (renderParts parts)
  | .implies premise consequent =>
      renderCall Keyword.implication.text [premise.render, consequent.render]
  | .forAll binders body =>
      renderCall Keyword.universal.text [renderVariables binders, body.render]
  | .forSome binders body =>
      renderCall Keyword.existential.text [renderVariables binders, body.render]

def renderParts : List Formula → List String
  | [] => []
  | part :: parts => part.render :: renderParts parts
end

@[simp] theorem renderParts_eq_map (parts : List Formula) :
    renderParts parts = parts.map render := by
  induction parts with
  | nil => simp [renderParts]
  | cons part parts induction => simp [renderParts, induction]

end Formula

end Ergo
