import Ergo.Formula.Basic

/-!
The names that matter for grounding: variables bound by universal quantifiers, and the names that
stand for themselves, which are the constants and the variables that nothing binds.
-/

namespace Ergo.Formula

mutual
def universalOccurrences : Formula → List String
  | .truth => []
  | .falsity => []
  | .atom _ _ => []
  | .equal _ _ => []
  | .not operand => operand.universalOccurrences
  | .and parts => partsUniversalOccurrences parts
  | .or parts => partsUniversalOccurrences parts
  | .implies premise consequent =>
      premise.universalOccurrences ++ consequent.universalOccurrences
  | .forAll binders body => binders ++ body.universalOccurrences
  | .forSome _ body => body.universalOccurrences

def partsUniversalOccurrences : List Formula → List String
  | [] => []
  | part :: parts => part.universalOccurrences ++ partsUniversalOccurrences parts
end

@[simp] theorem partsUniversalOccurrences_eq_flatMap (parts : List Formula) :
    partsUniversalOccurrences parts = parts.flatMap universalOccurrences := by
  induction parts with
  | nil => simp [partsUniversalOccurrences]
  | cons part parts induction => simp [partsUniversalOccurrences, induction]

def universalVariables (formula : Formula) : List String :=
  (NameSet.ofList formula.universalOccurrences).names

/-- Whether a term stands for itself inside quantifiers that bind `bound`. -/
def standsFree (bound : List String) : Term → Bool
  | .constant _ => true
  | .var name => !bound.contains name

def freeNames (bound : List String) (terms : List Term) : List String :=
  (terms.filter (standsFree bound)).map Term.name

mutual
/-- Names that stand for themselves inside quantifiers that bind `bound`. -/
def groundNameOccurrences (bound : List String) : Formula → List String
  | .truth => []
  | .falsity => []
  | .atom _ arguments => freeNames bound arguments
  | .equal left right => freeNames bound [left, right]
  | .not operand => operand.groundNameOccurrences bound
  | .and parts => partsGroundNameOccurrences bound parts
  | .or parts => partsGroundNameOccurrences bound parts
  | .implies premise consequent =>
      premise.groundNameOccurrences bound ++ consequent.groundNameOccurrences bound
  | .forAll binders body => body.groundNameOccurrences (bound ++ binders)
  | .forSome binders body => body.groundNameOccurrences (bound ++ binders)

def partsGroundNameOccurrences (bound : List String) : List Formula → List String
  | [] => []
  | part :: parts =>
      part.groundNameOccurrences bound ++ partsGroundNameOccurrences bound parts
end

@[simp] theorem partsGroundNameOccurrences_eq_flatMap (bound : List String)
    (parts : List Formula) :
    partsGroundNameOccurrences bound parts = parts.flatMap (groundNameOccurrences bound) := by
  induction parts with
  | nil => simp [partsGroundNameOccurrences]
  | cons part parts induction => simp [partsGroundNameOccurrences, induction]

/-- Distinct names that stand for themselves, in order of first occurrence. -/
def groundNames (formula : Formula) : List String :=
  (NameSet.ofList (formula.groundNameOccurrences [])).names

end Ergo.Formula
