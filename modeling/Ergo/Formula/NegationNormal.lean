import Ergo.Formula.Basic

/-!
Negation normal form: implications are written as disjunctions, and negations are moved inwards
until they stand on atoms and equalities.
-/

namespace Ergo.Formula

mutual
/-- The negation normal form of a formula, or of its negation if `negated`. -/
def normal (negated : Bool) : Formula → Formula
  | .truth => if negated then .falsity else .truth
  | .falsity => if negated then .truth else .falsity
  | .atom predicate arguments =>
      if negated then .not (.atom predicate arguments) else .atom predicate arguments
  | .equal left right => if negated then .not (.equal left right) else .equal left right
  | .not operand => operand.normal (!negated)
  | .and parts =>
      if negated then .or (normalParts negated parts) else .and (normalParts negated parts)
  | .or parts =>
      if negated then .and (normalParts negated parts) else .or (normalParts negated parts)
  | .implies premise consequent =>
      if negated then .and [premise.normal false, consequent.normal true]
      else .or [premise.normal true, consequent.normal false]
  | .forAll binders body =>
      if negated then .forSome binders (body.normal negated)
      else .forAll binders (body.normal negated)
  | .forSome binders body =>
      if negated then .forAll binders (body.normal negated)
      else .forSome binders (body.normal negated)

def normalParts (negated : Bool) : List Formula → List Formula
  | [] => []
  | part :: parts => part.normal negated :: normalParts negated parts
end

@[simp] theorem normalParts_eq_map (negated : Bool) (parts : List Formula) :
    normalParts negated parts = parts.map (normal negated) := by
  induction parts with
  | nil => simp [normalParts]
  | cons part parts induction => simp [normalParts, induction]

def negationNormal (formula : Formula) : Formula :=
  formula.normal false

end Ergo.Formula
