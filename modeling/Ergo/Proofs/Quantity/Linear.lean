import Ergo.Proofs.Constraint.Solver
import Ergo.Proofs.Quantity.Bounded
import Mathlib.Algebra.BigOperators.Group.Finset.Basic

/-!
Quantities that are read are linear with usable numbers. Each is a constant plus a multiple of every
variable that occurs in it; each of its parts without variables has its exact value within bounds; and
the numbers in it can be negated and, where they divide, inverted without leaving the bounds.
-/

namespace Ergo

open Ergo.Language Ergo.Linear

/-! ## Sums over the variables -/

section Sums

variable {K : Type*} [Field K]

theorem dotOver_map_eq_sum {names : List String} (nodup : names.Nodup) (coefficients : List Rat)
    (assignment : String → K) :
    dotOver coefficients (names.map assignment) =
      ∑ name ∈ names.toFinset, (coefficients.getD (names.idxOf name) 0 : K) * assignment name := by
  induction names generalizing coefficients with
  | nil => simp
  | cons first rest induction =>
      obtain ⟨outside, nodup⟩ := List.nodup_cons.mp nodup
      rw [List.toFinset_cons, Finset.sum_insert (by simpa using outside)]
      cases coefficients with
      | nil => simp
      | cons coefficient coefficients =>
          rw [List.map_cons, dotOver_cons_cons, induction nodup]
          congr 1
          · simp
          · apply Finset.sum_congr rfl
            intro name member
            have different : first ≠ name := by
              rintro rfl
              exact outside (List.mem_toFinset.mp member)
            rw [List.idxOf_cons_ne _ different, List.getD_cons_succ]

end Sums

namespace Quantity

/-- Whether the quantity is a constant plus a multiple of each variable that occurs in it, at every
assignment in a field of characteristic zero. -/
def IsLinear (quantity : Quantity) : Prop :=
  ∃ (constant : Rat) (coefficient : String → Rat),
    ∀ (K : Type) [Field K] [CharZero K] (assignment : String → K),
      quantity.valueOver assignment =
        constant + ∑ name ∈ quantity.variableOccurrences.toFinset,
          (coefficient name : K) * assignment name

variable {quantity : Quantity}

theorem IsAffine.isLinear (affine : quantity.IsAffine) : quantity.IsLinear := by
  let unknowns := NameSet.ofList quantity.variableOccurrences
  have linear : quantity.LinearIn unknowns.names :=
    ⟨affine, fun name occurs => NameSet.mem_ofList.mpr occurs⟩
  have sameNames : unknowns.names.toFinset = quantity.variableOccurrences.toFinset := by
    ext name
    rw [List.mem_toFinset, List.mem_toFinset]
    exact NameSet.mem_ofList
  let form := quantity.form unknowns.names
  refine ⟨form.constant, fun name => form.coefficients.getD (unknowns.names.idxOf name) 0, ?_⟩
  intro K _ _ assignment
  rw [← linear.valueAt_form unknowns.nodup assignment, Form.valueAt,
    dotOver_map_eq_sum unknowns.nodup, sameNames, add_comm]

/-! ## Parts -/

/-- The quantity and everything inside it. -/
def parts : Quantity → List Quantity
  | .number value => [.number value]
  | .var name => [.var name]
  | .add left right => .add left right :: (left.parts ++ right.parts)
  | .subtract left right => .subtract left right :: (left.parts ++ right.parts)
  | .multiply left right => .multiply left right :: (left.parts ++ right.parts)
  | .divide dividend divisor => .divide dividend divisor :: dividend.parts
  | .negate operand => .negate operand :: operand.parts

theorem WellFormed.of_mem_parts (wellFormed : quantity.WellFormed) :
    ∀ part ∈ quantity.parts, part.WellFormed := by
  induction wellFormed with
  | number hasValue =>
      rw [parts, List.forall_mem_singleton]
      exact .number hasValue
  | var unreserved =>
      rw [parts, List.forall_mem_singleton]
      exact .var unreserved
  | add leftFormed rightFormed hasValue leftInduction rightInduction =>
      rw [parts, List.forall_mem_cons, List.forall_mem_append]
      exact ⟨.add leftFormed rightFormed hasValue, leftInduction, rightInduction⟩
  | subtract leftFormed rightFormed hasValue leftInduction rightInduction =>
      rw [parts, List.forall_mem_cons, List.forall_mem_append]
      exact ⟨.subtract leftFormed rightFormed hasValue, leftInduction, rightInduction⟩
  | multiply leftFormed rightFormed oneGround hasValue leftInduction rightInduction =>
      rw [parts, List.forall_mem_cons, List.forall_mem_append]
      exact ⟨.multiply leftFormed rightFormed oneGround hasValue, leftInduction, rightInduction⟩
  | divide dividendFormed nonzero usable hasValue induction =>
      rw [parts, List.forall_mem_cons]
      exact ⟨.divide dividendFormed nonzero usable hasValue, induction⟩
  | negate operandFormed hasValue induction =>
      rw [parts, List.forall_mem_cons]
      exact ⟨.negate operandFormed hasValue, induction⟩

theorem WellFormed.hasValue (wellFormed : quantity.WellFormed) : quantity.HasValue := by
  cases wellFormed with
  | var => exact fun ground => nomatch ground
  | number hasValue | add _ _ hasValue | subtract _ _ hasValue | multiply _ _ _ hasValue
  | divide _ _ _ hasValue | negate _ hasValue => exact hasValue

theorem WellFormed.value?_eq_some (wellFormed : quantity.WellFormed)
    (ground : quantity.isGround = true) (assignment : String → Rat) :
    quantity.value? = some (quantity.eval assignment) := by
  obtain ⟨value, found⟩ := Option.isSome_iff_exists.mp (wellFormed.hasValue ground)
  rw [found, (eval_of_value? found assignment).1]

/-- Whether a number is stored in lowest terms over a positive denominator, both of which can be
negated within bounds. -/
structure IsStorable (value : Rat) : Prop where
  numerator : value.num.natAbs ≤ maxMagnitude
  positive : 0 < value.den
  denominator : value.den ≤ maxMagnitude

theorem isStorable_of_inRange {value : Rat} (usable : Bounded.inRange value = true) :
    IsStorable value :=
  have bounds := Bounded.inRange_iff.mp usable
  ⟨bounds.1, value.den_pos, bounds.2⟩

/-- What a quantity can be used for: it is linear, it is a number if it has no variables, and the
numbers in it can be negated and inverted. -/
structure IsUsable (quantity : Quantity) : Prop where
  linear : quantity.IsLinear
  value?_eq_some : quantity.isGround = true → ∀ assignment,
    quantity.value? = some (quantity.eval assignment)
  number : ∀ value, quantity = .number value → IsStorable value
  divisor : ∀ dividend divisor, quantity = .divide dividend divisor →
    divisor ≠ 0 ∧ IsStorable divisor ∧ IsStorable divisor⁻¹

theorem WellFormed.isUsable (wellFormed : quantity.WellFormed) : quantity.IsUsable where
  linear := wellFormed.isAffine.isLinear
  value?_eq_some := wellFormed.value?_eq_some
  number := by
    rintro value rfl
    apply isStorable_of_inRange
    exact inRange_of_value? (wellFormed.value?_eq_some rfl fun _ => 0)
  divisor := by
    rintro dividend divisor rfl
    cases wellFormed with
    | divide _ nonzero usable _ =>
        exact ⟨nonzero, isStorable_of_inRange usable,
          isStorable_of_inRange (Bounded.inRange_inv nonzero usable)⟩

end Quantity

/-- Whatever is read, alone or in a constraint, is usable, and so is everything inside it. -/
theorem isUsable_of_read :
    (∀ text constraints, Constraint.parseList text = .ok constraints →
      ∀ constraint ∈ constraints, ∀ quantity ∈ constraint.quantities,
        ∀ part ∈ quantity.parts, part.IsUsable) ∧
      ∀ text quantity, Quantity.parse text = .ok quantity →
        ∀ part ∈ quantity.parts, part.IsUsable := by
  constructor
  · intro text constraints read constraint listed quantity compared part inside
    obtain ⟨source, quantityRead⟩ := Constraint.quantities_of_parseList read listed quantity compared
    exact ((Quantity.wellFormed_of_ofExpression quantityRead).of_mem_parts part inside).isUsable
  · intro text quantity read part inside
    obtain ⟨expression, -, quantityRead⟩ := bind_eq_ok_iff.mp read
    exact ((Quantity.wellFormed_of_ofExpression quantityRead).of_mem_parts part inside).isUsable

def twoThirds : Quantity :=
  .divide (.multiply (.number 2) (.var "x")) 3

/-- The number that is multiplied with can be negated, and the one that divides can be inverted. -/
theorem twoThirds_isUsable :
    (Constraint.parseList "2 * x / 3 < y" = .ok [.compare .less twoThirds (.var "y")] ∧
      twoThirds ∈ (Constraint.compare .less twoThirds (.var "y")).quantities ∧
      .number 2 ∈ twoThirds.parts ∧ (Quantity.number 2).IsUsable) ∧
    Quantity.parse "2 * x / 3" = .ok twoThirds ∧ twoThirds ∈ twoThirds.parts ∧
      twoThirds.IsUsable := by
  obtain ⟨ofConstraints, ofQuantities⟩ := isUsable_of_read
  have listRead : Constraint.parseList "2 * x / 3 < y" =
      .ok [.compare .less twoThirds (.var "y")] := by
    decide +kernel
  have quantityRead : Quantity.parse "2 * x / 3" = .ok twoThirds := by decide +kernel
  have compared : twoThirds ∈ (Constraint.compare .less twoThirds (.var "y")).quantities := by
    simp [Constraint.quantities]
  have factor : .number 2 ∈ twoThirds.parts := by decide
  have whole : twoThirds ∈ twoThirds.parts := by decide
  exact ⟨⟨listRead, compared, factor,
      ofConstraints _ _ listRead _ (List.mem_singleton_self _) _ compared _ factor⟩,
    quantityRead, whole, ofQuantities _ _ quantityRead _ whole⟩

end Ergo
