import Ergo.Proofs.Constraint.Calculation
import Ergo.Proofs.Constraint.Truth
import Ergo.Proofs.Formula.RoundTrip
import Ergo.Proofs.Quantity.WrittenForm

/-!
Written constraints and answers read back. A constraint is read back with each quantity that it compares
as that quantity is read back, so it keeps its truth value where its quantities keep their values
(`reads_back_as_written`): everywhere but at a fraction that divides.
-/

namespace Ergo

open Ergo.Language

/-! ## Calls -/

section Calls

variable {texts : List String} {meanings : List (Expression → Prop)}

theorem exists_phrases (each : List.Forall₂ (Writes .comparison) texts meanings) :
    ∃ phrases : List Phrase,
      List.Forall₂ (fun text phrase => Spells text phrase.lexemes) texts phrases ∧
        (∀ phrase ∈ phrases, phrase.IsRead) ∧ phrases.map Phrase.Means = meanings := by
  induction each with
  | nil => exact ⟨[], .nil, by simp, rfl⟩
  | cons writes _ induction =>
      obtain ⟨lexemes, spells, isRead⟩ := writes
      obtain ⟨phrases, eachSpells, eachRead, rfl⟩ := induction
      exact ⟨⟨lexemes, _⟩ :: phrases, .cons spells eachSpells,
        List.forall_mem_cons.mpr ⟨isRead, eachRead⟩, rfl⟩

theorem writes_renderCall {function : String} (identifier : IsIdentifier function)
    (each : List.Forall₂ (Writes .comparison) texts meanings) :
    Writes .comparison (renderCall function texts) fun expression =>
      ∃ position arguments, expression = .call position function arguments ∧
        List.Forall₂ (fun means argument => means argument) meanings arguments := by
  obtain ⟨phrases, spells, isRead, rfl⟩ := exists_phrases each
  refine ⟨_, spells_renderCall identifier spells, fun tokens spelled => ?_⟩
  obtain ⟨expression, derives, position, arguments, rfl, allMean⟩ :=
    Phrase.isRead_call function isRead tokens spelled
  exact ⟨_, derives, position, arguments, rfl, List.forall₂_map_left_iff.mpr allMean⟩

end Calls

namespace Constraint

variable {constraint : Constraint} {parts : List Constraint} {expression : Expression}
  {expressions : List Expression}

/-! ## Reading within range -/

def InRange (constraint : Constraint) : Prop :=
  ∀ quantity ∈ constraint.quantities, quantity.InRange

/-- The expression is read as the constraint, or refused because a part of it is out of range. -/
structure ReadFrom (constraint : Constraint) (expression : Expression) : Prop where
  ok : constraint.InRange → ofExpression expression = .ok constraint
  outOfRange : ¬ constraint.InRange →
    ∃ position, ofExpression expression = .error ⟨position, .valueOutOfRange⟩

namespace ReadFrom

theorem constant (value : Bool) (position : Nat) :
    ReadFrom (.constant value) (.name position (renderBool value)) where
  ok _ := by cases value <;> rfl
  outOfRange unusable := absurd (by simp [InRange, quantities]) unusable

theorem compare {left right : Quantity} {leftExpression rightExpression : Expression}
    (leftRead : left.ReadFrom leftExpression) (rightRead : right.ReadFrom rightExpression)
    (comparison : Comparison) (position : Nat) :
    ReadFrom (.compare comparison left right)
      (.compare position comparison leftExpression rightExpression) where
  ok usable := by
    obtain ⟨leftUsable, rightUsable⟩ := List.forall_mem_cons.mp usable
    rw [ofExpression, leftRead.ok leftUsable, rightRead.ok (List.forall_mem_singleton.mp rightUsable)]
    rfl
  outOfRange unusable := by
    by_cases leftUsable : left.InRange
    · have rightUnusable : ¬ right.InRange := fun rightUsable =>
        unusable (by simpa [InRange, quantities] using ⟨leftUsable, rightUsable⟩)
      obtain ⟨place, refused⟩ := rightRead.outOfRange rightUnusable
      exact ⟨place, by rw [ofExpression, leftRead.ok leftUsable, refused]; rfl⟩
    · obtain ⟨place, refused⟩ := leftRead.outOfRange leftUsable
      exact ⟨place, by rw [ofExpression, refused]; rfl⟩

theorem ofExpressions_ok (each : List.Forall₂ ReadFrom parts expressions)
    (usable : ∀ part ∈ parts, part.InRange) : ofExpressions expressions = .ok parts := by
  rw [ofExpressions_eq_ok_iff]
  refine List.Forall₂.flip (forall₂_imp_of_mem each ?_)
  exact fun part member _ readFrom => readFrom.ok (usable part member)

theorem ofExpressions_error (each : List.Forall₂ ReadFrom parts expressions)
    (unusable : ¬ ∀ part ∈ parts, part.InRange) :
    ∃ position, ofExpressions expressions = .error ⟨position, .valueOutOfRange⟩ := by
  induction each with
  | nil => exact absurd (by simp) unusable
  | @cons part expression parts expressions readFrom _ induction =>
      rw [ofExpressions]
      by_cases usable : part.InRange
      · have laterUnusable := fun later => unusable (List.forall_mem_cons.mpr ⟨usable, later⟩)
        obtain ⟨place, refused⟩ := induction laterUnusable
        exact ⟨place, by rw [readFrom.ok usable, refused]; rfl⟩
      · obtain ⟨place, refused⟩ := readFrom.outOfRange usable
        exact ⟨place, by rw [refused]; rfl⟩

theorem call {keyword : Keyword} (connects : isConnective (some keyword) = true)
    (made : ∀ position, ofConnective position keyword.text (some keyword) parts = .ok constraint)
    (each : List.Forall₂ ReadFrom parts expressions) (position : Nat) :
    constraint.ReadFrom (.call position keyword.text expressions) := by
  have sameRange : constraint.InRange ↔ ∀ part ∈ parts, part.InRange := by
    rw [InRange, quantities_of_ofConnective (made 0)]
    exact List.forall_mem_flatMap
  have read : ofExpression (.call position keyword.text expressions) =
      (ofExpressions expressions >>= ofConnective position keyword.text (some keyword)) := by
    rw [ofExpression, Keyword.ofText?_text]
    exact if_pos connects
  constructor
  · intro usable
    rw [read, ofExpressions_ok each (sameRange.mp usable)]
    exact made position
  · intro unusable
    obtain ⟨place, refused⟩ := ofExpressions_error each (mt sameRange.mpr unusable)
    exact ⟨place, by rw [read, refused]; rfl⟩

end ReadFrom

/-! ## What is read back -/

mutual
def mapQuantities (change : Quantity → Quantity) : Constraint → Constraint
  | .constant value => .constant value
  | .compare comparison left right => .compare comparison (change left) (change right)
  | .and parts => .and (mapPartsQuantities change parts)
  | .or parts => .or (mapPartsQuantities change parts)
  | .not operand => .not (operand.mapQuantities change)
  | .implies premise consequent =>
      .implies (premise.mapQuantities change) (consequent.mapQuantities change)

def mapPartsQuantities (change : Quantity → Quantity) : List Constraint → List Constraint
  | [] => []
  | part :: parts => part.mapQuantities change :: mapPartsQuantities change parts
end

@[simp] theorem mapPartsQuantities_eq_map (change : Quantity → Quantity) (parts : List Constraint) :
    mapPartsQuantities change parts = parts.map (mapQuantities change) := by
  induction parts with
  | nil => simp [mapPartsQuantities]
  | cons part parts induction => simp [mapPartsQuantities, induction]

/-- What the written form is read as. -/
def asWritten (constraint : Constraint) : Constraint :=
  constraint.mapQuantities Quantity.asWritten

/-- Quantities of the same values make constraints of the same truth value. -/
theorem holds_mapQuantities_congr {assignment : String → Rat} {change other : Quantity → Quantity}
    (same : ∀ quantity ∈ constraint.quantities,
      (change quantity).eval assignment = (other quantity).eval assignment) :
    (constraint.mapQuantities change).holds assignment =
      (constraint.mapQuantities other).holds assignment := by
  induction constraint with
  | constant value => rfl
  | compare comparison left right =>
      obtain ⟨leftSame, rightSame⟩ := List.forall_mem_cons.mp same
      simp only [mapQuantities, holds, leftSame, List.forall_mem_singleton.mp rightSame]
  | and parts induction =>
      rw [quantities, partsQuantities_eq_flatMap, List.forall_mem_flatMap] at same
      simp only [mapQuantities, holds, mapPartsQuantities_eq_map, allHold_eq_all, List.all_map]
      exact all_eq_all_of_mem fun part member => induction part member (same part member)
  | or parts induction =>
      rw [quantities, partsQuantities_eq_flatMap, List.forall_mem_flatMap] at same
      simp only [mapQuantities, holds, mapPartsQuantities_eq_map, anyHolds_eq_any, List.any_map]
      exact any_eq_any_of_mem fun part member => induction part member (same part member)
  | not operand induction => simp only [mapQuantities, holds, induction same]
  | implies premise consequent premiseInduction consequentInduction =>
      obtain ⟨premiseSame, consequentSame⟩ := List.forall_mem_append.mp same
      simp only [mapQuantities, holds, premiseInduction premiseSame,
        consequentInduction consequentSame]

@[simp] theorem mapQuantities_id (constraint : Constraint) :
    constraint.mapQuantities id = constraint := by
  induction constraint with
  | constant value => rfl
  | compare comparison left right => rfl
  | and parts induction | or parts induction =>
      have sameParts : parts.map (mapQuantities id) = parts.map id := List.map_congr_left induction
      rw [mapQuantities, mapPartsQuantities_eq_map, sameParts, List.map_id]
  | not operand induction => rw [mapQuantities, induction]
  | implies premise consequent premiseInduction consequentInduction =>
      rw [mapQuantities, premiseInduction, consequentInduction]

/-! ## Texts -/

@[simp] theorem renderParts_eq_map (parts : List Constraint) : renderParts parts = parts.map render := by
  induction parts with
  | nil => simp [renderParts]
  | cons part parts induction => simp [renderParts, induction]

theorem writes_renderBool (value : Bool) :
    Writes .comparison (renderBool value) (ReadFrom (.constant value)) := by
  have identifier : IsIdentifier (renderBool value) := by cases value <;> decide
  refine (Writes.name identifier).ofAny.imp ?_
  rintro expression ⟨position, rfl⟩
  exact .constant value position

theorem writes_compare {first second : String} {left right : Quantity} (comparison : Comparison)
    (firstWrites : Writes .sum first left.ReadFrom) (secondWrites : Writes .sum second right.ReadFrom) :
    Writes .comparison (first ++ " " ++ comparison.symbol ++ " " ++ second)
      (ReadFrom (.compare comparison left right)) := by
  have writes := Writes.compare comparison firstWrites secondWrites
  simp only [← String.append_assoc] at writes
  refine writes.imp ?_
  rintro expression ⟨position, leftExpression, rightExpression, rfl, leftRead, rightRead⟩
  exact .compare leftRead rightRead comparison position

theorem writes_connective {keyword : Keyword} {texts : List String}
    (connects : isConnective (some keyword) = true)
    (made : ∀ position, ofConnective position keyword.text (some keyword) parts = .ok constraint)
    (each : List.Forall₂ (fun text part => Writes .comparison text (ReadFrom part)) texts parts) :
    Writes .comparison (renderCall keyword.text texts) constraint.ReadFrom := by
  have writes := writes_renderCall (isIdentifier_keyword keyword) (List.forall₂_map_right_iff.mpr each)
  refine writes.imp ?_
  rintro expression ⟨position, arguments, rfl, meanings⟩
  rw [List.forall₂_map_left_iff] at meanings
  exact .call connects made meanings position

theorem writes_render (legible : ∀ quantity ∈ constraint.quantities, quantity.Legible) :
    Writes .comparison constraint.render constraint.asWritten.ReadFrom := by
  unfold asWritten
  induction constraint with
  | constant value => exact writes_renderBool value
  | compare comparison left right =>
      obtain ⟨leftLegible, rightLegible⟩ := List.forall_mem_cons.mp legible
      exact writes_compare comparison (leftLegible.writes_render.weaken (by decide))
        ((List.forall_mem_singleton.mp rightLegible).writes_render.weaken (by decide))
  | and parts induction =>
      rw [quantities, partsQuantities_eq_flatMap, List.forall_mem_flatMap] at legible
      rw [render, mapQuantities, renderParts_eq_map, mapPartsQuantities_eq_map]
      refine writes_connective rfl (fun _ => rfl) ?_
      rw [List.forall₂_map_left_iff, List.forall₂_map_right_iff, List.forall₂_same]
      exact fun part member => induction part member (legible part member)
  | or parts induction =>
      rw [quantities, partsQuantities_eq_flatMap, List.forall_mem_flatMap] at legible
      rw [render, mapQuantities, renderParts_eq_map, mapPartsQuantities_eq_map]
      refine writes_connective rfl (fun _ => rfl) ?_
      rw [List.forall₂_map_left_iff, List.forall₂_map_right_iff, List.forall₂_same]
      exact fun part member => induction part member (legible part member)
  | not operand induction =>
      exact writes_connective rfl (fun _ => rfl) (.cons (induction legible) .nil)
  | implies premise consequent premiseInduction consequentInduction =>
      obtain ⟨premiseLegible, consequentLegible⟩ := List.forall_mem_append.mp legible
      exact writes_connective rfl (fun _ => rfl)
        (.cons (premiseInduction premiseLegible) (.cons (consequentInduction consequentLegible) .nil))

/-! ## Answers of a calculation -/

/-- The constraint that the answer to a comparison is read as. -/
def answered (comparison : Comparison) : Quantity → Quantity → Constraint
  | .number left, .number right => .constant (comparison.holds left right)
  | left, right => .compare comparison left.asWritten right.asWritten

theorem writes_renderComparison {left right : Quantity} (comparison : Comparison)
    (leftLegible : left.Legible) (rightLegible : right.Legible) :
    Writes .comparison (Calculation.renderComparison comparison left right)
      (answered comparison left right).ReadFrom := by
  have sides := writes_compare comparison leftLegible.writes_renderBare rightLegible.writes_renderBare
  cases left with
  | number leftValue =>
      cases right with
      | number rightValue => exact writes_renderBool _
      | _ => exact sides
  | _ => exact sides

theorem holds_answered {comparison : Comparison} {left right : Quantity} {assignment : String → Rat}
    (leftSame : left.asWritten.eval assignment = left.eval assignment)
    (rightSame : right.asWritten.eval assignment = right.eval assignment) :
    (answered comparison left right).holds assignment =
      comparison.holds (left.eval assignment) (right.eval assignment) := by
  unfold answered
  split
  · rfl
  · rw [holds, leftSame, rightSame]

/-! ## Whole texts -/

/-- The text is read as the constraint alone, or refused because a part of it is out of range. -/
structure IsReadAs (text : String) (constraint : Constraint) : Prop where
  ok : constraint.InRange → parseList text = .ok [constraint]
  outOfRange : ¬ constraint.InRange →
    ∃ position, parseList text = .error ⟨position, .valueOutOfRange⟩

theorem isReadAs_of_writes {level : Level} {text : String}
    (writes : Writes level text constraint.ReadFrom) : IsReadAs text constraint := by
  obtain ⟨expression, readFrom, -, parsed⟩ := writes.exists_parse
  constructor
  · intro usable
    rw [parseList, parsed]
    exact ReadFrom.ofExpressions_ok (.cons readFrom .nil) (List.forall_mem_singleton.mpr usable)
  · intro unusable
    rw [parseList, parsed]
    exact ReadFrom.ofExpressions_error (.cons readFrom .nil) (mt List.forall_mem_singleton.mp unusable)

/-- The text of the constraint is read as the constraint with its divisors as they are written. -/
structure ReadsBack (constraint : Constraint) (text : String) : Prop where
  isReadAs : IsReadAs text constraint.asWritten
  holds_eq : ∀ assignment, constraint.asWritten.holds assignment =
    (constraint.mapQuantities (Quantity.mapDivisors Quantity.writtenDivisor)).holds assignment
  keepsTruth : (∀ quantity ∈ constraint.quantities, quantity.HasWholeDivisors) →
    ∀ assignment, constraint.asWritten.holds assignment = constraint.holds assignment

theorem readsBack (legible : ∀ quantity ∈ constraint.quantities, quantity.Legible) :
    constraint.ReadsBack constraint.render where
  isReadAs := isReadAs_of_writes (writes_render legible)
  holds_eq assignment :=
    holds_mapQuantities_congr fun quantity _ => quantity.eval_asWritten assignment
  keepsTruth whole assignment := by
    have sameTruth : constraint.asWritten.holds assignment =
        (constraint.mapQuantities id).holds assignment :=
      holds_mapQuantities_congr fun quantity member => (whole quantity member).eval_asWritten assignment
    rw [sameTruth, mapQuantities_id]

theorem legible_of_ofExpression (identifiers : ∀ name ∈ expression.names, IsIdentifier name)
    (read : ofExpression expression = .ok constraint) :
    ∀ quantity ∈ constraint.quantities, quantity.Legible := by
  intro quantity inside
  obtain ⟨source, within, sourceRead⟩ :=
    quantities_of_ofExpression (List.Subset.refl _) read quantity inside
  exact Quantity.legible_of_ofExpression (fun name occurs => identifiers name (within occurs)) sourceRead

theorem legible_of_parseList {text : String} {constraints : List Constraint}
    (read : parseList text = .ok constraints) (member : constraint ∈ constraints) :
    ∀ quantity ∈ constraint.quantities, quantity.Legible := by
  obtain ⟨expressions, parsed, read⟩ := bind_eq_ok_iff.mp read
  obtain ⟨expression, listed, constraintRead⟩ :=
    exists_mem_left_of_forall₂ (ofExpressions_eq_ok_iff.mp read) member
  exact legible_of_ofExpression (isIdentifier_of_parseExpressions parsed expression listed)
    constraintRead

end Constraint

theorem Quantity.legible_of_parse {text : String} {quantity : Quantity}
    (read : Quantity.parse text = .ok quantity) : quantity.Legible := by
  obtain ⟨expression, parsed, quantityRead⟩ := bind_eq_ok_iff.mp read
  exact legible_of_ofExpression (isIdentifier_of_parseExpression parsed) quantityRead

theorem Calculation.simplified_of_parse {text : String} {quantity : Quantity}
    (read : Quantity.parse text = .ok quantity) :
    Calculation.simplified text = .ok quantity.simplify.renderBare := by
  obtain ⟨expression, parsed, quantityRead⟩ := bind_eq_ok_iff.mp read
  rw [Calculation.simplified, parsed]
  cases expression with
  | compare => cases quantityRead
  | _ =>
      simp only [bind, Except.bind, Calculation.ofExpression, quantityRead]
      rfl

/-- What is written of a quantity that was read, of its simplified form, of a constraint that was read,
and in answer to a comparison is read back, with each divisor as its numerator and denominator. -/
theorem reads_back_as_written (text : String) :
    (∀ quantity, Quantity.parse text = .ok quantity →
      Calculation.simplified text = .ok quantity.simplify.renderBare ∧
        ∀ printed ∈ [quantity, quantity.simplify],
          ∀ written ∈ [printed.render, printed.renderBare], printed.ReadsBack written) ∧
    (∀ constraints, Constraint.parseList text = .ok constraints →
      ∀ constraint ∈ constraints, constraint.ReadsBack constraint.render) ∧
    ∀ position comparison first second result,
      parseExpression text = .ok (.compare position comparison first second) →
      Calculation.simplified text = .ok result →
      ∃ left right, Constraint.ofExpression (.compare position comparison first second) =
          .ok (.compare comparison left right) ∧
        Constraint.IsReadAs result
          (Constraint.answered comparison left.simplify right.simplify) ∧
        (left.simplify.HasWholeDivisors → right.simplify.HasWholeDivisors → ∀ assignment,
          (Constraint.answered comparison left.simplify right.simplify).holds assignment =
            comparison.holds (left.simplify.eval assignment) (right.simplify.eval assignment)) := by
  refine ⟨fun quantity read => ?_, fun constraints read constraint member => ?_,
    fun position comparison first second result read simplifies => ?_⟩
  · have legible := Quantity.legible_of_parse read
    refine ⟨Calculation.simplified_of_parse read, fun printed isPrinted written isWritten => ?_⟩
    rcases List.mem_pair.mp isPrinted with rfl | rfl
    · exact legible.readsBack isWritten
    · exact legible.simplify.readsBack isWritten
  · exact Constraint.readsBack (Constraint.legible_of_parseList read member)
  · obtain ⟨left, right, constraintRead, rfl⟩ :=
      Calculation.simplified_of_comparison read simplifies
    have legible := Constraint.legible_of_ofExpression (isIdentifier_of_parseExpression read)
      constraintRead
    obtain ⟨leftLegible, rightLegible⟩ := List.forall_mem_cons.mp legible
    have writes := Constraint.writes_renderComparison comparison leftLegible.simplify
      (List.forall_mem_singleton.mp rightLegible).simplify
    refine ⟨left, right, constraintRead, Constraint.isReadAs_of_writes writes,
      fun leftWhole rightWhole assignment => ?_⟩
    exact Constraint.holds_answered (leftWhole.eval_asWritten assignment)
      (rightWhole.eval_asWritten assignment)

def halfAndHalf : Quantity :=
  .add (.divide (.var "x") 2) (.number (1 / 2))

def halfAndHalfWritten : Expression :=
  .operate 6 .add (.operate 2 .divide (.name 0 "x") (.number 4 2)) (.number 8 (1 / 2))

def belowOne : Constraint :=
  .compare .less halfAndHalf (.number 1)

def belowOneWritten : Expression :=
  .compare 12 .less halfAndHalfWritten (.number 14 1)

/-- A fraction as a term is read back as a division, which leaves the value as it was. -/
theorem halfAndHalf_reads_back :
    (Quantity.parse "x / 2 + 0.5" = .ok halfAndHalf ∧ halfAndHalf.render = "((x / 2) + 1/2)" ∧
      halfAndHalf.HasWholeDivisors ∧ halfAndHalf.asWritten.InRange ∧
      halfAndHalf.ReadsBack "((x / 2) + 1/2)") ∧
    (Constraint.parseList "x / 2 + 0.5 < 1" = .ok [belowOne] ∧
      belowOne.ReadsBack "((x / 2) + 1/2) < 1") ∧
    (parseExpression "x / 2 + 0.5 < 1" = .ok belowOneWritten ∧
      Calculation.simplified "x / 2 + 0.5 < 1" = .ok "(x / 2) + 1/2 < 1" ∧
      ∃ left right, Constraint.ofExpression belowOneWritten = .ok (.compare .less left right) ∧
        Constraint.IsReadAs "(x / 2) + 1/2 < 1"
          (Constraint.answered .less left.simplify right.simplify)) := by
  obtain ⟨ofQuantity, -, -⟩ := reads_back_as_written "x / 2 + 0.5"
  obtain ⟨-, ofConstraint, ofAnswer⟩ := reads_back_as_written "x / 2 + 0.5 < 1"
  have quantityRead : Quantity.parse "x / 2 + 0.5" = .ok halfAndHalf := by decide +kernel
  have listRead : Constraint.parseList "x / 2 + 0.5 < 1" = .ok [belowOne] := by decide +kernel
  have expressionRead : parseExpression "x / 2 + 0.5 < 1" = .ok belowOneWritten := by decide +kernel
  have simplified : Calculation.simplified "x / 2 + 0.5 < 1" = .ok "(x / 2) + 1/2 < 1" := by
    decide +kernel
  refine ⟨⟨quantityRead, by decide +kernel, ?_, by decide +kernel, ?_⟩, ⟨listRead, ?_⟩,
    expressionRead, simplified, ?_⟩
  · simp [Quantity.HasWholeDivisors, halfAndHalf, Quantity.divisors]
  · exact (ofQuantity _ quantityRead).2 _ (by simp) _ (by decide +kernel)
  · have written : belowOne.render = "((x / 2) + 1/2) < 1" := by decide +kernel
    exact written ▸ ofConstraint _ listRead belowOne (by simp)
  · obtain ⟨left, right, constraintRead, isReadAs, -⟩ :=
      ofAnswer _ _ _ _ _ expressionRead simplified
    exact ⟨left, right, constraintRead, isReadAs⟩

def xOverHalf : Quantity :=
  .divide (.var "x") (1 / 2)

/-- A fraction as a divisor is read back as two divisions: `x` over a half as half of `x`. -/
theorem not_keeps_value : ¬ ∀ text quantity back, Quantity.parse text = .ok quantity →
    Quantity.parse quantity.render = .ok back →
    ∀ assignment, back.eval assignment = quantity.eval assignment := by
  intro keeps
  have read : Quantity.parse "x / 0.5" = .ok xOverHalf := by decide +kernel
  have legible := Quantity.legible_of_parse read
  have usable : xOverHalf.asWritten.InRange := by decide +kernel
  have back := (Quantity.isReadAs_of_writes legible.writes_render).ok usable
  have same := keeps _ _ _ read back fun _ => 1
  revert same
  decide +kernel

end Ergo
