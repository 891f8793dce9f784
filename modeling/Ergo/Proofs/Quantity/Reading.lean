import Ergo.Proofs.Language.Names
import Ergo.Proofs.Quantity.Value

/-!
Reading quantities within range. What an expression is read as follows from what its parts are read as,
and where nothing else is wrong, a part that has no variables and leaves the bounds is what is refused.
-/

namespace Ergo.Quantity

open Ergo.Language

variable {quantity left right operand : Quantity} {position : Nat}
  {expression leftExpression rightExpression : Expression}

/-- Each part without variables has a value within bounds. -/
def InRange : Quantity → Prop
  | .number value => HasValue (.number value)
  | .var _ => True
  | .add left right => left.InRange ∧ right.InRange ∧ HasValue (.add left right)
  | .subtract left right => left.InRange ∧ right.InRange ∧ HasValue (.subtract left right)
  | .multiply left right => left.InRange ∧ right.InRange ∧ HasValue (.multiply left right)
  | .divide dividend divisor => dividend.InRange ∧ HasValue (.divide dividend divisor)
  | .negate operand => operand.InRange ∧ HasValue (.negate operand)

instance : DecidablePred HasValue := fun quantity =>
  inferInstanceAs (Decidable (quantity.isGround = true → quantity.value?.isSome = true))

instance decidableInRange : DecidablePred InRange
  | .number value => inferInstanceAs (Decidable (HasValue (.number value)))
  | .var _ => inferInstanceAs (Decidable True)
  | .add left right =>
      have := decidableInRange left
      have := decidableInRange right
      inferInstanceAs (Decidable (left.InRange ∧ right.InRange ∧ HasValue (.add left right)))
  | .subtract left right =>
      have := decidableInRange left
      have := decidableInRange right
      inferInstanceAs (Decidable (left.InRange ∧ right.InRange ∧ HasValue (.subtract left right)))
  | .multiply left right =>
      have := decidableInRange left
      have := decidableInRange right
      inferInstanceAs (Decidable (left.InRange ∧ right.InRange ∧ HasValue (.multiply left right)))
  | .divide dividend divisor =>
      have := decidableInRange dividend
      inferInstanceAs (Decidable (dividend.InRange ∧ HasValue (.divide dividend divisor)))
  | .negate operand =>
      have := decidableInRange operand
      inferInstanceAs (Decidable (operand.InRange ∧ HasValue (.negate operand)))

/-- The expression is read as the quantity, or refused because a part of it is out of range. -/
structure ReadFrom (quantity : Quantity) (expression : Expression) : Prop where
  ok : quantity.InRange → ofExpression expression = .ok quantity
  outOfRange : ¬ quantity.InRange →
    ∃ position, ofExpression expression = .error ⟨position, .valueOutOfRange⟩

theorem checked_of_hasValue (hasValue : quantity.HasValue) : checked position quantity = .ok quantity := by
  unfold checked
  rw [if_neg]
  intro refused
  obtain ⟨ground, none⟩ := Bool.and_eq_true_iff.mp refused
  rw [← Option.not_isSome, hasValue ground] at none
  cases none

theorem checked_of_not_hasValue (noValue : ¬ quantity.HasValue) :
    checked position quantity = .error ⟨position, .valueOutOfRange⟩ := by
  unfold checked
  rw [if_pos]
  simpa [HasValue] using noValue

/-- What is checked after its parts were read. -/
theorem ReadFrom.of_parts {parts : Prop} (position : Nat) (inRange : quantity.InRange ↔ parts ∧ quantity.HasValue)
    (ok : parts → ofExpression expression = checked position quantity)
    (outOfRange : ¬ parts → ∃ position,
      ofExpression expression = .error ⟨position, .valueOutOfRange⟩) :
    quantity.ReadFrom expression where
  ok usable := by
    obtain ⟨usableParts, hasValue⟩ := inRange.mp usable
    rw [ok usableParts, checked_of_hasValue hasValue]
  outOfRange unusable := by
    by_cases usableParts : parts
    · have noValue := fun hasValue => unusable (inRange.mpr ⟨usableParts, hasValue⟩)
      exact ⟨position, by rw [ok usableParts, checked_of_not_hasValue noValue]⟩
    · exact outOfRange usableParts

namespace ReadFrom

theorem number (position : Nat) (value : Rat) :
    ReadFrom (.number value) (.number position value) :=
  of_parts position (by simp [InRange]) (fun _ => rfl) fun never => absurd trivial never

theorem var {name : String} (unreserved : IsUnreserved name) (position : Nat) :
    ReadFrom (.var name) (.name position name) where
  ok _ := by
    have free : isReserved name = false := unreserved
    rw [ofExpression, free]
    rfl
  outOfRange unusable := absurd trivial unusable

theorem negate (readFrom : operand.ReadFrom expression) (position : Nat) :
    ReadFrom (.negate operand) (.negate position expression) := by
  refine of_parts position Iff.rfl (fun usable => ?_) fun unusable => ?_
  · rw [ofExpression, readFrom.ok usable]
    rfl
  · obtain ⟨place, refused⟩ := readFrom.outOfRange unusable
    exact ⟨place, by rw [ofExpression, refused]; rfl⟩

theorem operate {operator : Operator} (leftRead : left.ReadFrom leftExpression)
    (rightRead : right.ReadFrom rightExpression)
    (inRange : quantity.InRange ↔ (left.InRange ∧ right.InRange) ∧ quantity.HasValue)
    (joined : ofExpression leftExpression = .ok left → ofExpression rightExpression = .ok right →
      ofExpression (.operate position operator leftExpression rightExpression) =
        checked position quantity) :
    quantity.ReadFrom (.operate position operator leftExpression rightExpression) := by
  refine of_parts position inRange (fun usable => joined (leftRead.ok usable.1) (rightRead.ok usable.2))
    fun unusable => ?_
  by_cases leftUsable : left.InRange
  · have rightUnusable := fun usable => unusable ⟨leftUsable, usable⟩
    obtain ⟨place, refused⟩ := rightRead.outOfRange rightUnusable
    exact ⟨place, by rw [ofExpression, leftRead.ok leftUsable, refused]; rfl⟩
  · obtain ⟨place, refused⟩ := leftRead.outOfRange leftUsable
    exact ⟨place, by rw [ofExpression, refused]; rfl⟩

theorem add (leftRead : left.ReadFrom leftExpression) (rightRead : right.ReadFrom rightExpression)
    (position : Nat) :
    ReadFrom (.add left right) (.operate position .add leftExpression rightExpression) :=
  operate leftRead rightRead and_assoc.symm fun leftOk rightOk => by
    rw [ofExpression, leftOk, rightOk]
    rfl

theorem subtract (leftRead : left.ReadFrom leftExpression)
    (rightRead : right.ReadFrom rightExpression) (position : Nat) :
    ReadFrom (.subtract left right) (.operate position .subtract leftExpression rightExpression) :=
  operate leftRead rightRead and_assoc.symm fun leftOk rightOk => by
    rw [ofExpression, leftOk, rightOk]
    rfl

theorem multiply (oneGround : left.isGround = true ∨ right.isGround = true)
    (leftRead : left.ReadFrom leftExpression) (rightRead : right.ReadFrom rightExpression)
    (position : Nat) :
    ReadFrom (.multiply left right) (.operate position .multiply leftExpression rightExpression) :=
  operate leftRead rightRead and_assoc.symm fun leftOk rightOk => by
    rw [ofExpression, leftOk, rightOk]
    exact if_pos (Bool.or_eq_true_iff.mpr oneGround)

theorem divide {divisor : Rat} (usable : right.InRange) (isDivisor : right.value? = some divisor)
    (nonzero : divisor ≠ 0) (leftRead : left.ReadFrom leftExpression)
    (rightRead : right.ReadFrom rightExpression) (position : Nat) :
    ReadFrom (.divide left divisor) (.operate position .divide leftExpression rightExpression) := by
  have value : ∀ place, divisorValue place right = .ok divisor := fun place => by
    rw [divisorValue, isDivisor]
    exact if_neg nonzero
  refine operate leftRead rightRead (and_congr_left' (and_iff_left usable).symm)
    fun leftOk rightOk => ?_
  rw [ofExpression, leftOk, rightOk]
  simp only [bind, Except.bind, value]

end ReadFrom

/-! ## Names -/

theorem WellFormed.unreserved (wellFormed : quantity.WellFormed) :
    ∀ name ∈ quantity.variableOccurrences, IsUnreserved name := by
  induction wellFormed with
  | number _ => simp [variableOccurrences]
  | var unreserved => simpa [variableOccurrences, IsUnreserved] using unreserved
  | add _ _ _ leftInduction rightInduction
  | subtract _ _ _ leftInduction rightInduction
  | multiply _ _ _ _ leftInduction rightInduction =>
      exact List.forall_mem_append.mpr ⟨leftInduction, rightInduction⟩
  | divide _ _ _ _ induction => exact induction
  | negate _ _ induction => exact induction

theorem variableOccurrences_of_isGround (ground : quantity.isGround = true) :
    quantity.variableOccurrences = [] := by
  induction quantity with
  | number value => rfl
  | var name => cases ground
  | add left right leftInduction rightInduction
  | subtract left right leftInduction rightInduction
  | multiply left right leftInduction rightInduction =>
      obtain ⟨leftGround, rightGround⟩ := Bool.and_eq_true_iff.mp ground
      rw [variableOccurrences, leftInduction leftGround, rightInduction rightGround]
      rfl
  | divide dividend divisor induction => exact induction ground
  | negate operand induction => exact induction ground

theorem isGround_of_value? {value : Rat} (found : quantity.value? = some value) :
    quantity.isGround = true := by
  by_contra notGround
  rw [value?_eq_none_of_not_ground (by simpa using notGround)] at found
  cases found

/-- No name is lost or added in reading. A divisor has none, since it has a value. -/
theorem variableOccurrences_eq_names (read : ofExpression expression = .ok quantity) :
    quantity.variableOccurrences = expression.names := by
  induction expression using Expression.inductionOn generalizing quantity with
  | name position text =>
      rw [ofExpression] at read
      split at read
      · cases read
      · cases read
        rfl
  | number position value =>
      obtain ⟨rfl, -⟩ := of_checked read
      rfl
  | negate position operand induction =>
      rw [ofExpression, bind_eq_ok_iff] at read
      obtain ⟨inner, innerRead, read⟩ := read
      obtain ⟨rfl, -⟩ := of_checked read
      rw [Expression.names, ← induction innerRead]
      rfl
  | operate position operator left right leftInduction rightInduction =>
      simp only [ofExpression, bind_eq_ok_iff] at read
      obtain ⟨leftQuantity, leftRead, rightQuantity, rightRead, read⟩ := read
      rw [Expression.names, ← leftInduction leftRead, ← rightInduction rightRead]
      cases operator with
      | add | subtract =>
          obtain ⟨rfl, -⟩ := of_checked read
          rfl
      | multiply =>
          dsimp only at read
          split at read
          · obtain ⟨rfl, -⟩ := of_checked read
            rfl
          · cases read
      | divide =>
          obtain ⟨divisor, divisorRead, read⟩ := bind_eq_ok_iff.mp read
          obtain ⟨-, found⟩ := of_divisorValue divisorRead
          obtain ⟨rfl, -⟩ := of_checked read
          rw [variableOccurrences_of_isGround (isGround_of_value? found), List.append_nil]
          rfl
  | call | list | compare => cases read

end Ergo.Quantity
