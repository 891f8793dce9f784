import Ergo.Constraint.Calculation
import Ergo.Proofs.Quantity.Simplification
import Ergo.Proofs.Results

/-!
Calculation keeps values. A simplified quantity has the value of the quantity that was read, at every
assignment; so a comparison that is answered by a truth value has that truth value everywhere, and one
that is answered by its simplified sides compares as the sides that were read.
-/

namespace Ergo

open Ergo.Language

namespace Calculation

variable {text : String} {comparison : Comparison} {left right : Quantity}

/-! ## Answers -/

def Answers (text result : String) : Prop :=
  message text = text ++ " = " ++ result

theorem answers_of_simplified {result : String} (simplifies : simplified text = .ok result) :
    Answers text result := by
  rw [Answers, message, simplifies]

theorem exists_simplified (accepted : message text ≠ "Invalid equation") :
    ∃ result, simplified text = .ok result := by
  unfold message at accepted
  cases simplifies : simplified text with
  | error error =>
      rw [simplifies] at accepted
      exact absurd rfl accepted
  | ok result => exact ⟨result, rfl⟩

theorem Answers.iff_eq {result other : String} (answers : Answers text result) :
    Answers text other ↔ result = other := by
  rw [Answers, answers, String.append_right_inj]

/-! ## Comparisons -/

theorem space_not_mem_renderBool (value : Bool) : ' ' ∉ (Constraint.renderBool value).toList := by
  cases value <;> decide

theorem renderBool_inj {value other : Bool} :
    Constraint.renderBool value = Constraint.renderBool other ↔ value = other := by
  cases value <;> cases other <;> decide

/-- The answer is a truth value just if both sides are numbers. -/
theorem renderComparison_cases (comparison : Comparison) (left right : Quantity) :
    (∃ leftValue rightValue, left = .number leftValue ∧ right = .number rightValue ∧
      renderComparison comparison left right =
        Constraint.renderBool (comparison.holds leftValue rightValue)) ∨
    ((∀ value, renderComparison comparison left right ≠ Constraint.renderBool value) ∧
      renderComparison comparison left right =
        left.renderBare ++ " " ++ comparison.symbol ++ " " ++ right.renderBare) := by
  unfold renderComparison
  split
  · exact .inl ⟨_, _, rfl, rfl, rfl⟩
  · refine .inr ⟨fun value same => space_not_mem_renderBool value ?_, rfl⟩
    rw [← same]
    simp

/-- What the answer to a comparison says of its sides. -/
structure KeepsComparison (text : String) (comparison : Comparison) (left right : Quantity) : Prop where
  holds_of_true : Answers text "True" →
    ∀ assignment, comparison.holds (left.eval assignment) (right.eval assignment) = true
  fails_of_false : Answers text "False" →
    ∀ assignment, comparison.holds (left.eval assignment) (right.eval assignment) = false
  otherwise : ¬ Answers text "True" → ¬ Answers text "False" →
    Answers text
        (left.simplify.renderBare ++ " " ++ comparison.symbol ++ " " ++ right.simplify.renderBare) ∧
      ∀ assignment,
        comparison.holds (left.simplify.eval assignment) (right.simplify.eval assignment) =
          comparison.holds (left.eval assignment) (right.eval assignment)

theorem keepsComparison_of_answers
    (answers : Answers text (renderComparison comparison left.simplify right.simplify)) :
    KeepsComparison text comparison left right := by
  have isTrue : Answers text "True" ↔ _ = Constraint.renderBool true := answers.iff_eq
  have isFalse : Answers text "False" ↔ _ = Constraint.renderBool false := answers.iff_eq
  rcases renderComparison_cases comparison left.simplify right.simplify with
    ⟨leftValue, rightValue, leftNumber, rightNumber, isBool⟩ | ⟨notBool, sides⟩
  · have sameTruth : ∀ assignment,
        comparison.holds (left.eval assignment) (right.eval assignment) =
          comparison.holds leftValue rightValue := by
      intro assignment
      rw [← left.eval_simplify, ← right.eval_simplify, leftNumber, rightNumber]
      rfl
    rw [isBool, renderBool_inj] at isTrue isFalse
    constructor
    · intro answered assignment
      rw [sameTruth, isTrue.mp answered]
    · intro answered assignment
      rw [sameTruth, isFalse.mp answered]
    · intro notTrue notFalse
      rw [isTrue, Bool.not_eq_true] at notTrue
      exact absurd (isFalse.mpr notTrue) notFalse
  · constructor
    · exact fun answered => absurd (isTrue.mp answered) (notBool true)
    · exact fun answered => absurd (isFalse.mp answered) (notBool false)
    · refine fun _ _ => ⟨sides ▸ answers, fun assignment => ?_⟩
      rw [Quantity.eval_simplify, Quantity.eval_simplify]

theorem simplified_of_comparison {position : Nat} {first second : Expression} {result : String}
    (read : parseExpression text = .ok (.compare position comparison first second))
    (simplifies : simplified text = .ok result) :
    ∃ left right, Constraint.ofExpression (.compare position comparison first second) =
        .ok (.compare comparison left right) ∧
      result = renderComparison comparison left.simplify right.simplify := by
  obtain ⟨expression, same, simplifies⟩ := bind_eq_ok_iff.mp simplifies
  cases read.symm.trans same
  obtain ⟨left, leftRead, simplifies⟩ := bind_eq_ok_iff.mp simplifies
  obtain ⟨right, rightRead, simplifies⟩ := bind_eq_ok_iff.mp simplifies
  cases simplifies
  refine ⟨left, right, ?_, rfl⟩
  rw [Constraint.ofExpression, leftRead, rightRead]
  rfl

end Calculation

/-- Simplification keeps the value of a quantity, and a comparison that is calculated has the truth
value of its answer. -/
theorem simplification_keeps_values :
    (∀ text quantity, Quantity.parse text = .ok quantity → ∀ assignment,
      quantity.simplify.eval assignment = quantity.eval assignment) ∧
    ∀ text position comparison first second,
      parseExpression text = .ok (.compare position comparison first second) →
      Calculation.message text ≠ "Invalid equation" →
      ∃ left right, Constraint.ofExpression (.compare position comparison first second) =
          .ok (.compare comparison left right) ∧
        Calculation.KeepsComparison text comparison left right := by
  constructor
  · intro text quantity _ assignment
    exact quantity.eval_simplify assignment
  · intro text position comparison first second read accepted
    obtain ⟨result, simplifies⟩ := Calculation.exists_simplified accepted
    obtain ⟨left, right, constraintRead, rfl⟩ :=
      Calculation.simplified_of_comparison read simplifies
    exact ⟨left, right, constraintRead,
      Calculation.keepsComparison_of_answers (Calculation.answers_of_simplified simplifies)⟩

def nothingAndOne : Quantity :=
  .add (.multiply (.number 0) (.var "x")) (.number 1)

def nothingAndOneWritten : Expression :=
  .operate 6 .add (.operate 2 .multiply (.number 0 0) (.name 4 "x")) (.number 8 1)

/-- A variable that is multiplied by zero does not keep the comparison from having one answer. -/
theorem nothingAndOne_keeps_value :
    (Quantity.parse "0 * x + 1" = .ok nothingAndOne ∧ nothingAndOne.simplify = .number 1 ∧
      ∀ assignment, nothingAndOne.simplify.eval assignment = nothingAndOne.eval assignment) ∧
    Calculation.message "0 * x + 1 < 2" = "0 * x + 1 < 2 = True" ∧
      ∃ left right, Constraint.ofExpression
          (.compare 10 .less nothingAndOneWritten (.number 12 2)) = .ok (.compare .less left right) ∧
        Calculation.KeepsComparison "0 * x + 1 < 2" .less left right := by
  obtain ⟨ofQuantity, ofComparison⟩ := simplification_keeps_values
  have quantityRead : Quantity.parse "0 * x + 1" = .ok nothingAndOne := by decide +kernel
  have comparisonRead : parseExpression "0 * x + 1 < 2" =
      .ok (.compare 10 .less nothingAndOneWritten (.number 12 2)) := by
    decide +kernel
  have answered : Calculation.message "0 * x + 1 < 2" = "0 * x + 1 < 2 = True" := by decide +kernel
  have accepted : Calculation.message "0 * x + 1 < 2" ≠ "Invalid equation" := by
    rw [answered]
    decide
  exact ⟨⟨quantityRead, by decide +kernel, ofQuantity _ _ quantityRead⟩, answered,
    ofComparison _ _ _ _ _ comparisonRead accepted⟩

end Ergo
