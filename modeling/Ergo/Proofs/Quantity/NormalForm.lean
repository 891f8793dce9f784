import Ergo.Proofs.Quantity.Linear
import Ergo.Proofs.Quantity.Simplification
import Mathlib.Algebra.Order.BigOperators.Group.List

/-!
Normal forms of simplification. A quantity is its own simplified form just if no part of it can be
folded and none is redundant (`simplify_eq_self_iff`), and otherwise simplification leaves fewer parts
(`size_simplify_lt`), so that it comes to an end when it is repeated. One pass leaves no redundant part.
But folding is decided on the parts as they were read: one pass folds everything only if no part loses
all its variables by a product with zero.
-/

namespace Ergo

open Ergo.Language

namespace Quantity

variable {quantity simplified operand : Quantity} {P : Quantity → Prop}

/-- The quantity has a value but is not written as a number. -/
structure IsFoldable (quantity : Quantity) : Prop where
  hasValue : quantity.value?.isSome = true
  notNumber : ∀ value, quantity ≠ .number value

/-- The quantity has an operand that is neutral to its operation, or is a product with zero or a
double negative. -/
def IsRedundant : Quantity → Prop
  | .number _ | .var _ => False
  | .add left right => left = .number 0 ∨ right = .number 0
  | .subtract _ right => right = .number 0
  | .multiply left right =>
      (left = .number 0 ∨ right = .number 0) ∨ left = .number 1 ∨ right = .number 1
  | .divide _ divisor => divisor = 1
  | .negate operand => ∃ inner, operand = .negate inner

/-- No part can be folded, and none is redundant. -/
def IsReduced (quantity : Quantity) : Prop :=
  ∀ part ∈ quantity.parts, ¬ part.IsFoldable ∧ ¬ part.IsRedundant

/-- No part loses all its variables when it is simplified. -/
def KeepsVariables (quantity : Quantity) : Prop :=
  ∀ part ∈ quantity.parts, part.simplify.isGround = true → part.isGround = true

theorem not_isFoldable_number (value : Rat) : ¬ (number value).IsFoldable :=
  fun foldable => foldable.notNumber value rfl

theorem not_isFoldable_of_not_ground (notGround : quantity.isGround = false) :
    ¬ quantity.IsFoldable := by
  intro foldable
  have hasValue := foldable.hasValue
  rw [value?_eq_none_of_not_ground notGround] at hasValue
  cases hasValue

/-! ## Operands -/

def operands : Quantity → List Quantity
  | .number _ | .var _ => []
  | .add left right | .subtract left right | .multiply left right => [left, right]
  | .divide dividend _ => [dividend]
  | .negate operand => [operand]

def mapOperands (change : Quantity → Quantity) : Quantity → Quantity
  | .number value => .number value
  | .var name => .var name
  | .add left right => .add (change left) (change right)
  | .subtract left right => .subtract (change left) (change right)
  | .multiply left right => .multiply (change left) (change right)
  | .divide dividend divisor => .divide (change dividend) divisor
  | .negate operand => .negate (change operand)

theorem induction_operands {motive : Quantity → Prop} (quantity : Quantity)
    (step : ∀ quantity, (∀ operand ∈ quantity.operands, motive operand) → motive quantity) :
    motive quantity := by
  induction quantity with
  | number | var => exact step _ (List.forall_mem_nil _)
  | add left right leftInduction rightInduction
  | subtract left right leftInduction rightInduction
  | multiply left right leftInduction rightInduction =>
      exact step _ (by simp [operands, leftInduction, rightInduction])
  | divide dividend divisor induction => exact step _ (List.forall_mem_singleton.mpr induction)
  | negate operand induction => exact step _ (List.forall_mem_singleton.mpr induction)

theorem parts_eq (quantity : Quantity) :
    quantity.parts = quantity :: quantity.operands.flatMap parts := by
  cases quantity <;> simp [parts, operands]

theorem self_mem_parts (quantity : Quantity) : quantity ∈ quantity.parts := by
  rw [parts_eq]
  exact List.mem_cons_self

theorem parts_subset_of_mem_operands (inside : operand ∈ quantity.operands) :
    operand.parts ⊆ quantity.parts := by
  intro part isPart
  rw [quantity.parts_eq]
  exact List.mem_cons_of_mem _ (List.mem_flatMap.mpr ⟨operand, inside, isPart⟩)

@[simp] theorem operands_mapOperands (change : Quantity → Quantity) (quantity : Quantity) :
    (quantity.mapOperands change).operands = quantity.operands.map change := by
  cases quantity <;> rfl

theorem mapOperands_eq_self {change : Quantity → Quantity}
    (same : ∀ operand ∈ quantity.operands, change operand = operand) :
    quantity.mapOperands change = quantity := by
  cases quantity <;> simp_all [operands, mapOperands]

/-! ## One pass -/

/-- The quantity after the rule for its outermost operation. -/
def tidied : Quantity → Quantity
  | .number value => .number value
  | .var name => .var name
  | .add left right => simpleAdd left right
  | .subtract left right => simpleSubtract left right
  | .multiply left right => simpleMultiply left right
  | .divide dividend divisor => simpleDivide dividend divisor
  | .negate operand => simpleNegate operand

theorem foldOr_number_self (value : Rat) : foldOr (.number value) (.number value) = .number value := by
  unfold foldOr
  split
  · next found => rw [(Bounded.eq_of_keep? found).1]
  · rfl

/-- One pass: folding is decided on the quantity as it is, and the rule is for its simplified
operands. -/
theorem simplify_eq (quantity : Quantity) :
    quantity.simplify = foldOr quantity (quantity.mapOperands simplify).tidied := by
  cases quantity with
  | number value => exact (foldOr_number_self value).symm
  | _ => rfl

theorem tidied_of_not_isRedundant (notRedundant : ¬ quantity.IsRedundant) :
    quantity.tidied = quantity := by
  cases quantity with
  | number | var => rfl
  | add left right =>
      rw [IsRedundant, not_or] at notRedundant
      rw [tidied, simpleAdd, if_neg notRedundant.1, if_neg notRedundant.2]
  | subtract left right => exact if_neg notRedundant
  | multiply left right =>
      rw [IsRedundant, not_or, not_or (q := right = .number 1)] at notRedundant
      rw [tidied, simpleMultiply, if_neg notRedundant.1, if_neg notRedundant.2.1,
        if_neg notRedundant.2.2]
  | divide dividend divisor => exact if_neg notRedundant
  | negate operand =>
      cases operand with
      | negate inner => exact absurd ⟨inner, rfl⟩ notRedundant
      | _ => rfl

/-- The rule gives an operand, a zero that was an operand, or the operand of an operand. -/
theorem exists_tidied_parts_sublist (redundant : quantity.IsRedundant) :
    ∃ operand ∈ quantity.operands, quantity.tidied.parts.Sublist operand.parts := by
  cases quantity with
  | number | var => exact redundant.elim
  | add left right =>
      rw [tidied, simpleAdd]
      split
      · exact ⟨right, by simp [operands], List.Sublist.refl _⟩
      · next notZero =>
          rw [if_pos (redundant.resolve_left notZero)]
          exact ⟨left, by simp [operands], List.Sublist.refl _⟩
  | subtract left right =>
      rw [tidied, simpleSubtract, if_pos (show right = .number 0 from redundant)]
      exact ⟨left, by simp [operands], List.Sublist.refl _⟩
  | multiply left right =>
      rw [tidied, simpleMultiply]
      split
      · next isZero =>
          rcases isZero with rfl | rfl
          · exact ⟨.number 0, by simp [operands], List.Sublist.refl _⟩
          · exact ⟨.number 0, by simp [operands], List.Sublist.refl _⟩
      · next notZero =>
          split
          · exact ⟨right, by simp [operands], List.Sublist.refl _⟩
          · next notOne =>
              rw [if_pos ((redundant.resolve_left notZero).resolve_left notOne)]
              exact ⟨left, by simp [operands], List.Sublist.refl _⟩
  | divide dividend divisor =>
      rw [tidied, simpleDivide, if_pos (show divisor = 1 from redundant)]
      exact ⟨dividend, by simp [operands], List.Sublist.refl _⟩
  | negate operand =>
      obtain ⟨inner, rfl⟩ := redundant
      exact ⟨.negate inner, by simp [operands], List.sublist_cons_self _ _⟩

theorem forall_mem_parts_tidied (inside : ∀ operand ∈ quantity.operands, ∀ part ∈ operand.parts, P part)
    (own : ¬ quantity.IsRedundant → P quantity) : ∀ part ∈ quantity.tidied.parts, P part := by
  by_cases redundant : quantity.IsRedundant
  · obtain ⟨operand, isOperand, sublist⟩ := exists_tidied_parts_sublist redundant
    exact fun part isPart => inside operand isOperand part (sublist.subset isPart)
  · rw [tidied_of_not_isRedundant redundant, parts_eq, List.forall_mem_cons]
    refine ⟨own redundant, fun part isPart => ?_⟩
    obtain ⟨operand, isOperand, inOperand⟩ := List.mem_flatMap.mp isPart
    exact inside operand isOperand part inOperand

theorem forall_mem_parts_foldOr (number : ∀ value, P (.number value))
    (inside : quantity.value? = none → ∀ part ∈ simplified.parts, P part) :
    ∀ part ∈ (foldOr quantity simplified).parts, P part := by
  unfold foldOr
  split
  · next value _ =>
      rw [parts, List.forall_mem_singleton]
      exact number value
  · next noValue => exact inside noValue

theorem not_isRedundant_simplify (quantity : Quantity) :
    ∀ part ∈ quantity.simplify.parts, ¬ part.IsRedundant := by
  induction quantity using induction_operands with
  | step quantity induction =>
      rw [simplify_eq]
      refine forall_mem_parts_foldOr (fun _ => not_false) fun _ => forall_mem_parts_tidied ?_ id
      rw [operands_mapOperands, List.forall_mem_map]
      exact induction

/-- If no part loses its variables, what is left without a value has variables, so that nothing is
left to fold. -/
theorem WellFormed.not_isFoldable_simplify (wellFormed : quantity.WellFormed)
    (keeps : quantity.KeepsVariables) : ∀ part ∈ quantity.simplify.parts, ¬ part.IsFoldable := by
  induction quantity using induction_operands with
  | step quantity induction =>
      have own := keeps quantity quantity.self_mem_parts
      rw [simplify_eq] at own ⊢
      refine forall_mem_parts_foldOr not_isFoldable_number fun noValue => ?_
      have notGround : (quantity.mapOperands simplify).tidied.isGround = false := by
        rw [foldOr, noValue] at own
        by_contra ground
        have found := wellFormed.hasValue (own (by simpa using ground))
        rw [noValue] at found
        cases found
      refine forall_mem_parts_tidied ?_ fun notRedundant => ?_
      · rw [operands_mapOperands, List.forall_mem_map]
        intro operand isOperand
        have subset := parts_subset_of_mem_operands isOperand
        exact induction operand isOperand
          (wellFormed.of_mem_parts operand (subset operand.self_mem_parts))
          fun part isPart => keeps part (subset isPart)
      · rw [tidied_of_not_isRedundant notRedundant] at notGround
        exact not_isFoldable_of_not_ground notGround

/-! ## Fixed points -/

theorem isReduced_iff : quantity.IsReduced ↔
    (¬ quantity.IsFoldable ∧ ¬ quantity.IsRedundant) ∧
      ∀ operand ∈ quantity.operands, operand.IsReduced := by
  unfold IsReduced
  rw [parts_eq, List.forall_mem_cons]
  simp only [List.forall_mem_flatMap]

theorem foldOr_self (notFoldable : ¬ quantity.IsFoldable) : foldOr quantity quantity = quantity := by
  by_cases isNumber : ∃ value, quantity = .number value
  · obtain ⟨value, rfl⟩ := isNumber
    exact foldOr_number_self value
  · have noValue : quantity.value? = none := by
      rw [← Option.not_isSome_iff_eq_none]
      exact fun hasValue => notFoldable ⟨hasValue, not_exists.mp isNumber⟩
    rw [foldOr, noValue]

theorem IsReduced.simplify_eq_self (reduced : quantity.IsReduced) : quantity.simplify = quantity := by
  induction quantity using induction_operands with
  | step quantity induction =>
      obtain ⟨⟨notFoldable, notRedundant⟩, operandsReduced⟩ := isReduced_iff.mp reduced
      have same : quantity.mapOperands simplify = quantity :=
        mapOperands_eq_self fun operand inside =>
          induction operand inside (operandsReduced operand inside)
      rw [simplify_eq, same, tidied_of_not_isRedundant notRedundant, foldOr_self notFoldable]

/-! ## Sizes -/

def size (quantity : Quantity) : Nat :=
  quantity.parts.length

theorem size_eq (quantity : Quantity) :
    quantity.size = (quantity.operands.map size).sum + 1 := by
  rw [size, parts_eq, List.length_cons, List.length_flatMap]
  rfl

theorem size_pos (quantity : Quantity) : 0 < quantity.size :=
  List.length_pos_of_mem quantity.self_mem_parts

theorem size_lt_of_mem_operands (inside : operand ∈ quantity.operands) :
    operand.size < quantity.size := by
  have le := List.single_le_sum (l := quantity.operands.map size) (by simp) _
    (List.mem_map_of_mem inside)
  rw [quantity.size_eq]
  omega

theorem one_lt_size_of_isFoldable (foldable : quantity.IsFoldable) : 1 < quantity.size := by
  cases quantity with
  | number value => exact absurd rfl (foldable.notNumber value)
  | var name => cases foldable.hasValue
  | _ => simp [size, parts, List.length_pos_of_mem (self_mem_parts _)]

theorem size_foldOr_le : (foldOr quantity simplified).size ≤ simplified.size := by
  unfold foldOr
  split
  · exact simplified.size_pos
  · exact le_rfl

theorem size_foldOr_of_isFoldable (foldable : quantity.IsFoldable) :
    (foldOr quantity simplified).size = 1 := by
  obtain ⟨value, found⟩ := Option.isSome_iff_exists.mp foldable.hasValue
  rw [foldOr, found]
  rfl

theorem size_tidied_lt (redundant : quantity.IsRedundant) : quantity.tidied.size < quantity.size := by
  obtain ⟨operand, isOperand, sublist⟩ := exists_tidied_parts_sublist redundant
  exact sublist.length_le.trans_lt (size_lt_of_mem_operands isOperand)

theorem size_tidied_le (quantity : Quantity) : quantity.tidied.size ≤ quantity.size := by
  by_cases redundant : quantity.IsRedundant
  · exact (size_tidied_lt redundant).le
  · rw [tidied_of_not_isRedundant redundant]

theorem size_simplify_le_mapOperands (quantity : Quantity) :
    quantity.simplify.size ≤ (quantity.mapOperands simplify).size := by
  rw [simplify_eq]
  exact size_foldOr_le.trans (size_tidied_le _)

theorem size_mapOperands (change : Quantity → Quantity) (quantity : Quantity) :
    (quantity.mapOperands change).size =
      (quantity.operands.map fun operand => (change operand).size).sum + 1 := by
  rw [size_eq, operands_mapOperands, List.map_map]
  rfl

theorem size_simplify_le (quantity : Quantity) : quantity.simplify.size ≤ quantity.size := by
  induction quantity using induction_operands with
  | step quantity induction =>
      refine quantity.size_simplify_le_mapOperands.trans ?_
      rw [size_mapOperands, quantity.size_eq]
      exact Nat.succ_le_succ (List.sum_le_sum induction)

theorem size_simplify_lt (notReduced : ¬ quantity.IsReduced) :
    quantity.simplify.size < quantity.size := by
  induction quantity using induction_operands with
  | step quantity induction =>
      by_cases foldable : quantity.IsFoldable
      · rw [simplify_eq, size_foldOr_of_isFoldable foldable]
        exact one_lt_size_of_isFoldable foldable
      by_cases operandsReduced : ∀ operand ∈ quantity.operands, operand.IsReduced
      · -- Nothing changes below, so it is the rule for the outermost operation that applies.
        have redundant : quantity.IsRedundant := by
          by_contra notRedundant
          exact notReduced (isReduced_iff.mpr ⟨⟨foldable, notRedundant⟩, operandsReduced⟩)
        have same : quantity.mapOperands simplify = quantity :=
          mapOperands_eq_self fun operand inside => (operandsReduced operand inside).simplify_eq_self
        rw [simplify_eq, same]
        exact size_foldOr_le.trans_lt (size_tidied_lt redundant)
      · obtain ⟨operand, inside, operandNotReduced⟩ :
            ∃ operand ∈ quantity.operands, ¬ operand.IsReduced := by
          simpa using operandsReduced
        refine quantity.size_simplify_le_mapOperands.trans_lt ?_
        rw [size_mapOperands, quantity.size_eq]
        refine Nat.succ_lt_succ (List.sum_lt_sum _ _ (fun other _ => other.size_simplify_le) ?_)
        exact ⟨operand, inside, induction operand inside operandNotReduced⟩

theorem simplify_eq_self_iff : quantity.simplify = quantity ↔ quantity.IsReduced := by
  refine ⟨fun same => ?_, IsReduced.simplify_eq_self⟩
  by_contra notReduced
  have less := size_simplify_lt notReduced
  rw [same] at less
  exact less.false

theorem simplify_simplify_eq_iff : quantity.simplify.simplify = quantity.simplify ↔
    ∀ part ∈ quantity.simplify.parts, ¬ part.IsFoldable := by
  rw [simplify_eq_self_iff]
  constructor
  · exact fun reduced part inside => (reduced part inside).1
  · exact fun unfolded part inside =>
      ⟨unfolded part inside, quantity.not_isRedundant_simplify part inside⟩

/-- Each pass that changes something leaves fewer parts. -/
theorem exists_isReduced_iterate (quantity : Quantity) :
    ∃ passes ≤ quantity.size, (simplify^[passes] quantity).IsReduced := by
  induction bound : quantity.size using Nat.strong_induction_on generalizing quantity with
  | h bound induction =>
      subst bound
      by_cases reduced : quantity.IsReduced
      · exact ⟨0, Nat.zero_le _, reduced⟩
      · have less := size_simplify_lt reduced
        obtain ⟨passes, fewer, laterReduced⟩ := induction _ less quantity.simplify rfl
        exact ⟨passes + 1, by omega, laterReduced⟩

end Quantity

/-- Simplification leaves no redundant part. A second pass changes nothing just if nothing is left to
fold, as it is when no part of what was read loses its variables; and the passes come to an end. -/
theorem simplification_settles {text : String} {quantity : Quantity}
    (read : Quantity.parse text = .ok quantity) :
    (∀ part ∈ quantity.simplify.parts, ¬ part.IsRedundant) ∧
    (quantity.simplify.simplify = quantity.simplify ↔
      ∀ part ∈ quantity.simplify.parts, ¬ part.IsFoldable) ∧
    (quantity.KeepsVariables → ∀ part ∈ quantity.simplify.parts, ¬ part.IsFoldable) ∧
    ∃ passes ≤ quantity.size, (Quantity.simplify^[passes] quantity).IsReduced := by
  obtain ⟨expression, -, quantityRead⟩ := bind_eq_ok_iff.mp read
  have wellFormed := Quantity.wellFormed_of_ofExpression quantityRead
  exact ⟨quantity.not_isRedundant_simplify, Quantity.simplify_simplify_eq_iff,
    wellFormed.not_isFoldable_simplify, quantity.exists_isReduced_iterate⟩

def onceAndSix : Quantity :=
  .subtract (.add (.multiply (.var "x") (.number 1)) (.multiply (.number 2) (.number 3))) (.number 0)

theorem onceAndSix_settles :
    Quantity.parse "x * 1 + 2 * 3 - 0" = .ok onceAndSix ∧ onceAndSix.KeepsVariables ∧
      onceAndSix.simplify = .add (.var "x") (.number 6) ∧
      onceAndSix.simplify.simplify = onceAndSix.simplify := by
  have read : Quantity.parse "x * 1 + 2 * 3 - 0" = .ok onceAndSix := by decide +kernel
  have keeps : onceAndSix.KeepsVariables := by
    unfold Quantity.KeepsVariables
    decide +kernel
  obtain ⟨-, settled, folded, -⟩ := simplification_settles read
  exact ⟨read, keeps, by decide +kernel, settled.mpr (folded keeps)⟩

def threeAndNothing : Quantity :=
  .add (.number 1) (.add (.number 2) (.multiply (.number 0) (.var "x")))

/-- The inner sum becomes a number when the outer one has been found to have no value. -/
theorem not_settled_by_one_pass :
    ¬ ∀ text quantity, Quantity.parse text = .ok quantity →
      quantity.simplify.simplify = quantity.simplify := by
  intro settles
  have read : Quantity.parse "1 + (2 + 0 * x)" = .ok threeAndNothing := by decide +kernel
  have once : threeAndNothing.simplify = .add (.number 1) (.number 2) := by decide +kernel
  have twice := settles _ _ read
  rw [once] at twice
  revert twice
  decide +kernel

end Ergo
