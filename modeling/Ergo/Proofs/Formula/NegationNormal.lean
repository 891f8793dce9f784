import Ergo.Formula.NegationNormal
import Ergo.Proofs.Formula.FreeTerms

/-!
Negation normal form. Main statements: the normal form of a formula or of its negation is normal
(`isNormal_normal`), has the same free terms (`freeTerms_normal`) and is true in the same structures
(`holds_normal`), and what is normal is its own normal form (`IsNormal.negationNormal_eq_self`).
-/

namespace Ergo

universe u

namespace Formula

/-- A formula without parts, or the negation of an atom or an equality. -/
inductive IsLiteral : Formula → Prop
  | truth : IsLiteral .truth
  | falsity : IsLiteral .falsity
  | atom (predicate : String) (arguments : List Term) : IsLiteral (.atom predicate arguments)
  | equal (left right : Term) : IsLiteral (.equal left right)
  | notAtom (predicate : String) (arguments : List Term) :
      IsLiteral (.not (.atom predicate arguments))
  | notEqual (left right : Term) : IsLiteral (.not (.equal left right))

/-- There is no implication, and negations stand in literals only. -/
inductive IsNormal : Formula → Prop
  | literal {formula : Formula} : IsLiteral formula → IsNormal formula
  | and {parts : List Formula} : (∀ part ∈ parts, IsNormal part) → IsNormal (.and parts)
  | or {parts : List Formula} : (∀ part ∈ parts, IsNormal part) → IsNormal (.or parts)
  | forAll (binders : List String) {body : Formula} : IsNormal body →
      IsNormal (.forAll binders body)
  | forSome (binders : List String) {body : Formula} : IsNormal body →
      IsNormal (.forSome binders body)

theorem isNormal_normal (formula : Formula) (negated : Bool) :
    (formula.normal negated).IsNormal := by
  induction formula generalizing negated with
  | truth => exact .literal (by cases negated <;> constructor)
  | falsity => exact .literal (by cases negated <;> constructor)
  | atom predicate arguments => exact .literal (by cases negated <;> constructor)
  | equal left right => exact .literal (by cases negated <;> constructor)
  | not operand induction => exact induction (!negated)
  | and parts induction =>
      have normal : ∀ part ∈ parts.map (Formula.normal negated), part.IsNormal := by
        simpa using fun part member => induction part member negated
      cases negated
      · simpa [Formula.normal] using IsNormal.and normal
      · simpa [Formula.normal] using IsNormal.or normal
  | or parts induction =>
      have normal : ∀ part ∈ parts.map (Formula.normal negated), part.IsNormal := by
        simpa using fun part member => induction part member negated
      cases negated
      · simpa [Formula.normal] using IsNormal.or normal
      · simpa [Formula.normal] using IsNormal.and normal
  | implies premise consequent premiseInduction consequentInduction =>
      cases negated
      · refine IsNormal.or fun part member => ?_
        simp only [List.mem_cons, List.not_mem_nil, or_false] at member
        rcases member with rfl | rfl
        · exact premiseInduction true
        · exact consequentInduction false
      · refine IsNormal.and fun part member => ?_
        simp only [List.mem_cons, List.not_mem_nil, or_false] at member
        rcases member with rfl | rfl
        · exact premiseInduction false
        · exact consequentInduction true
  | forAll binders body induction =>
      cases negated
      · exact .forAll binders (induction false)
      · exact .forSome binders (induction true)
  | forSome binders body induction =>
      cases negated
      · exact .forSome binders (induction false)
      · exact .forAll binders (induction true)

/-- The free terms stay, in their order, whichever way a formula is turned. -/
theorem freeTerms_normal (formula : Formula) (negated : Bool) (bound : List String) :
    (formula.normal negated).freeTerms bound = formula.freeTerms bound := by
  have partsSame {negated : Bool} {bound : List String} {parts : List Formula}
      (each : ∀ part ∈ parts, (part.normal negated).freeTerms bound = part.freeTerms bound) :
      partsFreeTerms bound (normalParts negated parts) = partsFreeTerms bound parts := by
    rw [normalParts_eq_map, partsFreeTerms_eq_flatMap, partsFreeTerms_eq_flatMap, List.flatMap_map]
    exact List.flatMap_congr each
  induction formula generalizing negated bound with
  | truth => cases negated <;> rfl
  | falsity => cases negated <;> rfl
  | atom predicate arguments => cases negated <;> rfl
  | equal left right => cases negated <;> rfl
  | not operand induction => exact induction (!negated) bound
  | and parts induction =>
      have same := partsSame fun part member => induction part member negated bound
      cases negated <;> exact same
  | or parts induction =>
      have same := partsSame fun part member => induction part member negated bound
      cases negated <;> exact same
  | implies premise consequent premiseInduction consequentInduction =>
      cases negated <;>
        simp [normal, freeTerms, premiseInduction, consequentInduction]
  | forAll binders body induction =>
      cases negated <;> exact induction _ (bound ++ binders)
  | forSome binders body induction =>
      cases negated <;> exact induction _ (bound ++ binders)

theorem predicates_normal (formula : Formula) (negated : Bool) :
    (formula.normal negated).predicates = formula.predicates := by
  have partsSame {negated : Bool} {parts : List Formula}
      (each : ∀ part ∈ parts, (part.normal negated).predicates = part.predicates) :
      partsPredicates (normalParts negated parts) = partsPredicates parts := by
    rw [normalParts_eq_map, partsPredicates_eq_flatMap, partsPredicates_eq_flatMap,
      List.flatMap_map]
    exact List.flatMap_congr each
  induction formula generalizing negated with
  | truth => cases negated <;> rfl
  | falsity => cases negated <;> rfl
  | atom predicate arguments => cases negated <;> rfl
  | equal left right => cases negated <;> rfl
  | not operand induction => exact induction (!negated)
  | and parts induction =>
      have same := partsSame fun part member => induction part member negated
      cases negated <;> exact same
  | or parts induction =>
      have same := partsSame fun part member => induction part member negated
      cases negated <;> exact same
  | implies premise consequent premiseInduction consequentInduction =>
      cases negated <;>
        simp [normal, predicates, premiseInduction, consequentInduction]
  | forAll binders body induction => cases negated <;> exact induction _
  | forSome binders body induction => cases negated <;> exact induction _

/-- A normal formula is left as it is. -/
theorem IsNormal.negationNormal_eq_self {formula : Formula} (normal : formula.IsNormal) :
    formula.negationNormal = formula := by
  rw [negationNormal]
  induction normal with
  | literal literal => cases literal <;> rfl
  | and _ induction =>
      rw [Formula.normal, normalParts_eq_map, map_eq_self induction, if_neg Bool.false_ne_true]
  | or _ induction =>
      rw [Formula.normal, normalParts_eq_map, map_eq_self induction, if_neg Bool.false_ne_true]
  | forAll binders _ induction => exact congrArg (Formula.forAll binders) induction
  | forSome binders _ induction => exact congrArg (Formula.forSome binders) induction

end Formula

namespace Structure

variable {model : Structure.{u}} {range : model.Range} {reading : model.Reading}
  {assignment : model.Assignment}

theorem holds_normal (formula : Formula) (negated : Bool) :
    Holds range reading assignment (formula.normal negated) ↔
      if negated then ¬ Holds range reading assignment formula
      else Holds range reading assignment formula := by
  induction formula generalizing negated assignment with
  | truth => cases negated <;> simp [Formula.normal, Holds]
  | falsity => cases negated <;> simp [Formula.normal, Holds]
  | atom predicate arguments => cases negated <;> simp [Formula.normal, Holds]
  | equal left right => cases negated <;> simp [Formula.normal, Holds]
  | not operand induction => cases negated <;> simp [Formula.normal, Holds, induction]
  | and parts induction =>
      cases negated
      · simp only [Formula.normal, Formula.normalParts_eq_map, Holds, allHold_iff,
          List.forall_mem_map, if_neg Bool.false_ne_true]
        exact forall₂_congr fun part member => induction part member false
      · simp only [Formula.normal, Formula.normalParts_eq_map, Holds, anyHolds_iff, allHold_iff,
          List.mem_map, exists_exists_and_eq_and, if_true, not_forall, exists_prop]
        exact exists_congr fun part => and_congr_right fun member => induction part member true
  | or parts induction =>
      cases negated
      · simp only [Formula.normal, Formula.normalParts_eq_map, Holds, anyHolds_iff,
          List.mem_map, exists_exists_and_eq_and, if_neg Bool.false_ne_true]
        exact exists_congr fun part => and_congr_right fun member => induction part member false
      · simp only [Formula.normal, Formula.normalParts_eq_map, Holds, anyHolds_iff, allHold_iff,
          List.forall_mem_map, if_true, not_exists, not_and]
        exact forall₂_congr fun part member => induction part member true
  | implies premise consequent premiseInduction consequentInduction =>
      cases negated
      · simp [Formula.normal, Holds, premiseInduction, consequentInduction, imp_iff_not_or]
      · simp [Formula.normal, Holds, premiseInduction, consequentInduction]
  | forAll binders body induction =>
      cases negated <;> simp [Formula.normal, Holds, induction]
  | forSome binders body induction =>
      cases negated <;> simp [Formula.normal, Holds, induction]

theorem satisfies_negationNormal {sortOf : String → String} (formula : Formula) :
    Satisfies sortOf reading formula.negationNormal ↔ Satisfies sortOf reading formula := by
  simp [Satisfies, Formula.negationNormal, holds_normal]

end Structure

/-- The negation normal form of a formula is true in the same structures, whatever its quantifiers
range over and its free variables are assigned, is normal, has the same constants and the same free
variables at the same occurrences, and is its own normal form. -/
theorem Formula.negationNormal_spec (formula : Formula) :
    (∀ (model : Structure.{u}) (range : model.Range) (reading : model.Reading)
      (assignment : model.Assignment),
      Structure.Holds range reading assignment formula.negationNormal ↔
        Structure.Holds range reading assignment formula) ∧
    formula.negationNormal.IsNormal ∧
    formula.negationNormal.constants = formula.constants ∧
    formula.negationNormal.freeVariables = formula.freeVariables ∧
    formula.negationNormal.negationNormal = formula.negationNormal := by
  have normal : formula.negationNormal.IsNormal := isNormal_normal formula false
  have sameTerms : formula.negationNormal.freeTerms [] = formula.freeTerms [] :=
    freeTerms_normal formula false []
  refine ⟨fun model range reading assignment => ?_, normal, congrArg constantNames sameTerms,
    congrArg variableNames sameTerms, normal.negationNormal_eq_self⟩
  rw [negationNormal, Structure.holds_normal, if_neg Bool.false_ne_true]

end Ergo
