import Ergo.Constraint.Reader
import Ergo.Proofs.Language.Names
import Ergo.Proofs.Lists
import Ergo.Proofs.Quantity.Value
import Mathlib.Data.Rat.Cast.Order

/-!
Truth of constraints under assignments in any ordered field, the reals among them, and the
quantities that a constraint compares.
-/

namespace Ergo

open Ergo.Language

/-! ## Truth -/

section Truth

variable {K : Type*} [LinearOrder K]

def Language.Comparison.Relates : Comparison → K → K → Prop
  | .equal, left, right => left = right
  | .notEqual, left, right => left ≠ right
  | .less, left, right => left < right
  | .lessOrEqual, left, right => left ≤ right
  | .greater, left, right => right < left
  | .greaterOrEqual, left, right => right ≤ left

@[simp] theorem Language.Comparison.relates_negate (comparison : Comparison) (left right : K) :
    comparison.negate.Relates left right ↔ ¬ comparison.Relates left right := by
  cases comparison <;> simp [negate, Relates]

variable [Field K]

theorem Language.Comparison.relates_cast [IsStrictOrderedRing K] (comparison : Comparison)
    (left right : Rat) :
    comparison.Relates (left : K) right ↔ comparison.holds left right = true := by
  cases comparison <;> simp [Relates, holds]

namespace Constraint

mutual
/-- Whether the constraint is true when each variable has the value `assignment` gives it. -/
def IsTrue (assignment : String → K) : Constraint → Prop
  | .constant value => value = true
  | .compare comparison left right =>
      comparison.Relates (left.valueOver assignment) (right.valueOver assignment)
  | .and parts => AllTrue assignment parts
  | .or parts => AnyTrue assignment parts
  | .not operand => ¬ operand.IsTrue assignment
  | .implies premise consequent => premise.IsTrue assignment → consequent.IsTrue assignment

def AllTrue (assignment : String → K) : List Constraint → Prop
  | [] => True
  | part :: parts => part.IsTrue assignment ∧ AllTrue assignment parts

def AnyTrue (assignment : String → K) : List Constraint → Prop
  | [] => False
  | part :: parts => part.IsTrue assignment ∨ AnyTrue assignment parts
end

@[simp] theorem allTrue_iff (assignment : String → K) (parts : List Constraint) :
    AllTrue assignment parts ↔ ∀ part ∈ parts, part.IsTrue assignment := by
  induction parts with
  | nil => simp [AllTrue]
  | cons part parts induction => simp [AllTrue, induction]

@[simp] theorem anyTrue_iff (assignment : String → K) (parts : List Constraint) :
    AnyTrue assignment parts ↔ ∃ part ∈ parts, part.IsTrue assignment := by
  induction parts with
  | nil => simp [AnyTrue]
  | cons part parts induction => simp [AnyTrue, induction]

/-- Truth at rational values is what is computed. -/
theorem isTrue_cast_iff [IsStrictOrderedRing K] (assignment : String → Rat)
    (constraint : Constraint) :
    constraint.IsTrue (fun name => (assignment name : K)) ↔
      constraint.holds assignment = true := by
  induction constraint with
  | constant value => simp [IsTrue, holds]
  | compare comparison left right =>
      simp [IsTrue, holds, Quantity.valueOver_cast, Comparison.relates_cast]
  | and parts induction => simpa [IsTrue, holds] using forall₂_congr induction
  | or parts induction =>
      simpa [IsTrue, holds] using exists_congr fun part => and_congr_right (induction part)
  | not operand induction => simp [IsTrue, holds, induction]
  | implies premise consequent premiseInduction consequentInduction =>
      simp [IsTrue, holds, premiseInduction, consequentInduction, ← Bool.not_eq_true,
        imp_iff_not_or]

end Constraint

end Truth

/-! ## Quantities -/

namespace Constraint

mutual
/-- The quantities that are compared. -/
def quantities : Constraint → List Quantity
  | .constant _ => []
  | .compare _ left right => [left, right]
  | .and parts => partsQuantities parts
  | .or parts => partsQuantities parts
  | .not operand => operand.quantities
  | .implies premise consequent => premise.quantities ++ consequent.quantities

def partsQuantities : List Constraint → List Quantity
  | [] => []
  | part :: parts => part.quantities ++ partsQuantities parts
end

@[simp] theorem partsQuantities_eq_flatMap (parts : List Constraint) :
    partsQuantities parts = parts.flatMap quantities := by
  induction parts with
  | nil => simp [partsQuantities]
  | cons part parts induction => simp [partsQuantities, induction]

@[simp] theorem partsVariableOccurrences_eq_flatMap (parts : List Constraint) :
    partsVariableOccurrences parts = parts.flatMap variableOccurrences := by
  induction parts with
  | nil => simp [partsVariableOccurrences]
  | cons part parts induction => simp [partsVariableOccurrences, induction]

theorem variableOccurrences_eq_flatMap (constraint : Constraint) :
    constraint.variableOccurrences =
      constraint.quantities.flatMap Quantity.variableOccurrences := by
  induction constraint with
  | constant value => simp [variableOccurrences, quantities]
  | compare comparison left right => simp [variableOccurrences, quantities]
  | and parts induction | or parts induction =>
      simp only [variableOccurrences, quantities, partsVariableOccurrences_eq_flatMap,
        partsQuantities_eq_flatMap, List.flatMap_assoc]
      exact List.flatMap_congr induction
  | not operand induction => simp [variableOccurrences, quantities, induction]
  | implies premise consequent premiseInduction consequentInduction =>
      simp [variableOccurrences, quantities, premiseInduction, consequentInduction]

theorem ofExpressions_eq_mapM (expressions : List Expression) :
    ofExpressions expressions = expressions.mapM ofExpression := by
  induction expressions with
  | nil => rfl
  | cons expression expressions induction =>
      rw [ofExpressions, induction, List.mapM_cons]

theorem ofExpressions_eq_ok_iff {expressions : List Expression} {parts : List Constraint} :
    ofExpressions expressions = .ok parts ↔
      List.Forall₂ (fun expression part => ofExpression expression = .ok part)
        expressions parts := by
  rw [ofExpressions_eq_mapM, mapM_eq_ok_iff]

theorem quantities_of_ofConnective {keyword : Option Keyword} {function : String} {position : Nat}
    {parts : List Constraint} {constraint : Constraint}
    (read : ofConnective position function keyword parts = .ok constraint) :
    constraint.quantities = parts.flatMap quantities := by
  unfold ofConnective at read
  split at read <;> cases read <;> simp [quantities]

/-- Whatever a constraint compares was itself read as a quantity, from a part of the expression. -/
theorem quantities_of_ofExpression {expression : Expression} {constraint : Constraint}
    {names : List String} (within : expression.names ⊆ names)
    (read : ofExpression expression = .ok constraint) :
    ∀ quantity ∈ constraint.quantities,
      ∃ source, source.names ⊆ names ∧ Quantity.ofExpression source = .ok quantity := by
  induction expression using Expression.inductionOn generalizing constraint with
  | name position text =>
      rw [ofExpression] at read
      split at read <;> cases read <;> simp [quantities]
  | call position function arguments induction =>
      simp only [ofExpression] at read
      split at read
      · obtain ⟨parts, partsRead, read⟩ := bind_eq_ok_iff.mp read
        intro quantity member
        rw [quantities_of_ofConnective read, List.mem_flatMap] at member
        obtain ⟨part, listed, inside⟩ := member
        obtain ⟨argument, argumentListed, partRead⟩ :=
          exists_mem_left_of_forall₂ (ofExpressions_eq_ok_iff.mp partsRead) listed
        have argumentsWithin := (List.cons_subset.mp within).2
        exact induction argument argumentListed (names_subset_of_mem argumentListed argumentsWithin)
          partRead quantity inside
      · cases read
  | compare position comparison left right =>
      obtain ⟨leftWithin, rightWithin⟩ := List.append_subset.mp within
      simp only [ofExpression, bind_eq_ok_iff] at read
      obtain ⟨leftQuantity, leftRead, rightQuantity, rightRead, read⟩ := read
      cases read
      simpa [quantities] using ⟨⟨left, leftWithin, leftRead⟩, ⟨right, rightWithin, rightRead⟩⟩
  | number | list | negate | operate => cases read

theorem quantities_of_parseList {text : String} {constraints : List Constraint}
    {constraint : Constraint} (read : parseList text = .ok constraints)
    (member : constraint ∈ constraints) :
    ∀ quantity ∈ constraint.quantities, ∃ source, Quantity.ofExpression source = .ok quantity := by
  obtain ⟨expressions, -, read⟩ := bind_eq_ok_iff.mp read
  obtain ⟨expression, -, read⟩ :=
    exists_mem_left_of_forall₂ (ofExpressions_eq_ok_iff.mp read) member
  intro quantity inside
  obtain ⟨source, -, sourceRead⟩ :=
    quantities_of_ofExpression (List.Subset.refl _) read quantity inside
  exact ⟨source, sourceRead⟩

end Constraint

end Ergo
