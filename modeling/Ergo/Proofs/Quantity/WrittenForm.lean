import Ergo.Proofs.Language.Writing
import Ergo.Proofs.Quantity.Reading
import Ergo.Proofs.Quantity.Simplification
import Ergo.Quantity.Printer

/-!
Quantities and their written form. Every operation but a negation is written inside parentheses, while
a fraction is written without them, so its denominator divides whatever stands before it: a fraction
that is a term or a factor keeps its value, and a fraction that divides is read back as two divisions,
by its numerator and by its denominator (`asWritten`).
-/

namespace Ergo.Quantity

open Ergo.Language

variable {quantity left right dividend operand : Quantity}

/-! ## What is read back -/

/-- An integer as it is read: the negative of a natural number if it has a sign. -/
def ofInt : Int → Quantity
  | .ofNat value => .number value
  | .negSucc value => .negate (.number (value + 1 : Nat))

/-- The quantity over a denominator, if that is written. -/
def overDenominator (quantity : Quantity) (denominator : Nat) : Quantity :=
  if denominator = 1 then quantity else .divide quantity denominator

/-- The denominator at the end of the written form, or one. -/
def writtenDenominator : Quantity → Nat
  | .number value => value.den
  | .negate operand => operand.writtenDenominator
  | .var _ | .add _ _ | .subtract _ _ | .multiply _ _ | .divide _ _ => 1

/-- What the written form is read as in front of its denominator. A sign is read with the numerator
alone, and so is a product with the numerator of its second factor. -/
def writtenNumerator : Quantity → Quantity
  | .number value => ofInt value.num
  | .var name => .var name
  | .add left right =>
      .add (left.writtenNumerator.overDenominator left.writtenDenominator)
        (right.writtenNumerator.overDenominator right.writtenDenominator)
  | .subtract left right =>
      .subtract (left.writtenNumerator.overDenominator left.writtenDenominator)
        (right.writtenNumerator.overDenominator right.writtenDenominator)
  | .multiply left right =>
      overDenominator
        (.multiply (left.writtenNumerator.overDenominator left.writtenDenominator)
          right.writtenNumerator)
        right.writtenDenominator
  | .divide dividend divisor =>
      overDenominator
        (.divide (dividend.writtenNumerator.overDenominator dividend.writtenDenominator)
          divisor.num)
        divisor.den
  | .negate operand => .negate operand.writtenNumerator

/-- What the written form is read as. -/
def asWritten (quantity : Quantity) : Quantity :=
  quantity.writtenNumerator.overDenominator quantity.writtenDenominator

@[simp] theorem overDenominator_one (quantity : Quantity) : quantity.overDenominator 1 = quantity :=
  if_pos rfl

/-! ## Values -/

section Values

variable {assignment : String → Rat}

@[simp] theorem eval_ofInt (value : Int) : (ofInt value).eval assignment = value := by
  cases value with
  | ofNat value => simp [ofInt, eval]
  | negSucc value => simp [ofInt, eval, Int.negSucc_eq]

@[simp] theorem eval_overDenominator (quantity : Quantity) (denominator : Nat) :
    (quantity.overDenominator denominator).eval assignment = quantity.eval assignment / denominator := by
  unfold overDenominator
  split
  · next isOne => rw [isOne, Nat.cast_one, div_one]
  · rfl

/-- The number that a quantity is divided by when it is divided by both parts of a fraction. -/
def writtenDivisor (divisor : Rat) : Rat :=
  divisor.num * divisor.den

def mapDivisors (change : Rat → Rat) : Quantity → Quantity
  | .number value => .number value
  | .var name => .var name
  | .add left right => .add (left.mapDivisors change) (right.mapDivisors change)
  | .subtract left right => .subtract (left.mapDivisors change) (right.mapDivisors change)
  | .multiply left right => .multiply (left.mapDivisors change) (right.mapDivisors change)
  | .divide dividend divisor => .divide (dividend.mapDivisors change) (change divisor)
  | .negate operand => .negate (operand.mapDivisors change)

/-- What is read back has the value of the quantity with each divisor as it is written. -/
theorem eval_asWritten (assignment : String → Rat) (quantity : Quantity) :
    quantity.asWritten.eval assignment = (quantity.mapDivisors writtenDivisor).eval assignment := by
  rw [asWritten, eval_overDenominator]
  induction quantity with
  | number value =>
      rw [writtenNumerator, eval_ofInt, writtenDenominator, mapDivisors, eval, Rat.num_div_den]
  | var name => simp [writtenNumerator, writtenDenominator, mapDivisors]
  | add left right leftInduction rightInduction
  | subtract left right leftInduction rightInduction =>
      simp [writtenNumerator, writtenDenominator, mapDivisors, eval, leftInduction, rightInduction]
  | multiply left right leftInduction rightInduction =>
      simp [writtenNumerator, writtenDenominator, mapDivisors, eval, leftInduction, mul_div_assoc,
        rightInduction]
  | divide dividend divisor induction =>
      simp [writtenNumerator, writtenDenominator, mapDivisors, eval, induction, writtenDivisor,
        div_div]
  | negate operand induction =>
      simp [writtenNumerator, writtenDenominator, mapDivisors, eval, neg_div, induction]

def divisors : Quantity → List Rat
  | .number _ => []
  | .var _ => []
  | .add left right => left.divisors ++ right.divisors
  | .subtract left right => left.divisors ++ right.divisors
  | .multiply left right => left.divisors ++ right.divisors
  | .divide dividend divisor => divisor :: dividend.divisors
  | .negate operand => operand.divisors

def HasWholeDivisors (quantity : Quantity) : Prop :=
  ∀ divisor ∈ quantity.divisors, divisor.den = 1

theorem mapDivisors_eq_self {change : Rat → Rat}
    (same : ∀ divisor ∈ quantity.divisors, change divisor = divisor) :
    quantity.mapDivisors change = quantity := by
  induction quantity with
  | number value => rfl
  | var name => rfl
  | add left right leftInduction rightInduction
  | subtract left right leftInduction rightInduction
  | multiply left right leftInduction rightInduction =>
      obtain ⟨leftSame, rightSame⟩ := List.forall_mem_append.mp same
      rw [mapDivisors, leftInduction leftSame, rightInduction rightSame]
  | divide dividend divisor induction =>
      obtain ⟨own, dividendSame⟩ := List.forall_mem_cons.mp same
      rw [mapDivisors, induction dividendSame, own]
  | negate operand induction => rw [mapDivisors, induction same]

/-- Without fractions as divisors, what is read back has the value of what is written. -/
theorem HasWholeDivisors.eval_asWritten (whole : quantity.HasWholeDivisors)
    (assignment : String → Rat) : quantity.asWritten.eval assignment = quantity.eval assignment := by
  rw [Quantity.eval_asWritten, mapDivisors_eq_self]
  intro divisor member
  rw [writtenDivisor, whole divisor member, Nat.cast_one, mul_one]
  exact Rat.coe_int_num_of_den_eq_one (whole divisor member)

end Values

/-! ## Quantities that can be written -/

@[simp] theorem isGround_ofInt (value : Int) : (ofInt value).isGround = true := by
  cases value <;> rfl

@[simp] theorem isGround_overDenominator (quantity : Quantity) (denominator : Nat) :
    (quantity.overDenominator denominator).isGround = quantity.isGround := by
  unfold overDenominator
  split <;> rfl

@[simp] theorem isGround_writtenNumerator (quantity : Quantity) :
    quantity.writtenNumerator.isGround = quantity.isGround := by
  induction quantity with
  | number value => simp [writtenNumerator, isGround]
  | var name => rfl
  | add left right leftInduction rightInduction
  | subtract left right leftInduction rightInduction
  | multiply left right leftInduction rightInduction =>
      simp [writtenNumerator, isGround, leftInduction, rightInduction]
  | divide dividend divisor induction | negate operand induction =>
      simp [writtenNumerator, isGround, induction]

/-- Whether the written form can be read at all: names are not reserved, numbers are usable, a product
has a factor without variables, and no divisor is zero. -/
inductive Legible : Quantity → Prop
  | number {value : Rat} : Bounded.inRange value = true → Legible (.number value)
  | var {name : String} : IsIdentifier name → IsUnreserved name → Legible (.var name)
  | add {left right : Quantity} : left.Legible → right.Legible → Legible (.add left right)
  | subtract {left right : Quantity} : left.Legible → right.Legible → Legible (.subtract left right)
  | multiply {left right : Quantity} : left.isGround = true ∨ right.isGround = true →
      left.Legible → right.Legible → Legible (.multiply left right)
  | divide {dividend : Quantity} {divisor : Rat} : divisor ≠ 0 → Bounded.inRange divisor = true →
      dividend.Legible → Legible (.divide dividend divisor)
  | negate {operand : Quantity} : operand.Legible → Legible (.negate operand)

theorem WellFormed.legible (wellFormed : quantity.WellFormed)
    (identifiers : ∀ name ∈ quantity.variableOccurrences, IsIdentifier name) : quantity.Legible := by
  induction wellFormed with
  | number hasValue =>
      obtain ⟨value, found⟩ := Option.isSome_iff_exists.mp (hasValue rfl)
      obtain ⟨rfl, usable⟩ := Bounded.inRange_of_keep? found
      exact .number usable
  | var unreserved => exact .var (identifiers _ (by simp [variableOccurrences])) unreserved
  | add _ _ _ leftInduction rightInduction =>
      obtain ⟨leftNames, rightNames⟩ := List.forall_mem_append.mp identifiers
      exact .add (leftInduction leftNames) (rightInduction rightNames)
  | subtract _ _ _ leftInduction rightInduction =>
      obtain ⟨leftNames, rightNames⟩ := List.forall_mem_append.mp identifiers
      exact .subtract (leftInduction leftNames) (rightInduction rightNames)
  | multiply _ _ oneGround _ leftInduction rightInduction =>
      obtain ⟨leftNames, rightNames⟩ := List.forall_mem_append.mp identifiers
      exact .multiply oneGround (leftInduction leftNames) (rightInduction rightNames)
  | divide _ nonzero usable _ induction => exact .divide nonzero usable (induction identifiers)
  | negate _ _ induction => exact .negate (induction identifiers)

theorem legible_of_ofExpression {expression : Expression}
    (identifiers : ∀ name ∈ expression.names, IsIdentifier name)
    (read : ofExpression expression = .ok quantity) : quantity.Legible :=
  (wellFormed_of_ofExpression read).legible fun name occurs =>
    identifiers name (variableOccurrences_eq_names read ▸ occurs)

/-! ## Simplified quantities -/

section Simplify

variable {simplified : Quantity}

theorem Legible.foldOr (legible : simplified.Legible) : (foldOr quantity simplified).Legible := by
  unfold Quantity.foldOr
  split
  · next value found => exact .number (inRange_of_value? found)
  · exact legible

theorem Legible.simplify (legible : quantity.Legible) : quantity.simplify.Legible := by
  induction legible with
  | number usable => exact .number usable
  | var identifier unreserved => exact .var identifier unreserved
  | add _ _ leftInduction rightInduction =>
      apply Legible.foldOr
      unfold simpleAdd
      split_ifs
      · exact rightInduction
      · exact leftInduction
      · exact .add leftInduction rightInduction
  | subtract _ _ leftInduction rightInduction =>
      apply Legible.foldOr
      unfold simpleSubtract
      split_ifs
      · exact leftInduction
      · exact .subtract leftInduction rightInduction
  | multiply oneGround _ _ leftInduction rightInduction =>
      apply Legible.foldOr
      unfold simpleMultiply
      split_ifs
      · exact .number (by decide)
      · exact rightInduction
      · exact leftInduction
      · exact .multiply (oneGround.imp isGround_simplify isGround_simplify) leftInduction
          rightInduction
  | divide nonzero usable _ induction =>
      apply Legible.foldOr
      unfold simpleDivide
      split_ifs
      · exact induction
      · exact .divide nonzero usable induction
  | negate _ induction =>
      apply Legible.foldOr
      unfold simpleNegate
      split
      · next isNegative =>
          rw [isNegative] at induction
          cases induction with
          | negate operandLegible => exact operandLegible
      · exact .negate induction

end Simplify

/-! ## Texts -/

section Texts

variable {text : String} {denominator : Nat} {value : Rat}

theorem keep?_intCast {value : Int} (small : value.natAbs ≤ maxMagnitude) :
    Bounded.keep? value = some (value : Rat) := by
  have oneFits : 1 ≤ maxMagnitude := by decide
  rw [Bounded.keep?, if_pos]
  exact Bounded.inRange_iff.mpr ⟨small, oneFits⟩

theorem HasValue.of_value? (found : quantity.value? = some value) : quantity.HasValue :=
  fun _ => found ▸ rfl

theorem keep?_natCast {value : Nat} (small : value ≤ maxMagnitude) :
    Bounded.keep? value = some (value : Rat) := by
  have kept := keep?_intCast (Int.natAbs_natCast value ▸ small)
  rwa [Int.cast_natCast] at kept

theorem value?_ofInt {value : Int} (small : value.natAbs ≤ maxMagnitude) :
    (ofInt value).value? = some (value : Rat) := by
  cases value with
  | ofNat value => exact keep?_intCast small
  | negSucc value =>
      have magnitude : Bounded.keep? (value + 1 : Nat) = some ((value + 1 : Nat) : Rat) :=
        keep?_natCast small
      have kept := keep?_intCast small
      rw [Int.cast_negSucc] at kept ⊢
      rw [ofInt, value?, value?, magnitude]
      exact kept

theorem inRange_ofInt {value : Int} (small : value.natAbs ≤ maxMagnitude) : (ofInt value).InRange := by
  cases value with
  | ofNat value => exact .of_value? (value?_ofInt small)
  | negSucc value =>
      have magnitude : HasValue (.number (value + 1 : Nat)) := .of_value? (keep?_natCast small)
      exact ⟨magnitude, .of_value? (value?_ofInt small)⟩

/-- The text of a quantity over a denominator, if that is written. -/
def overText (text : String) (denominator : Nat) : String :=
  if denominator = 1 then text else text ++ "/" ++ toString denominator

theorem append_overText (before text : String) (denominator : Nat) :
    before ++ overText text denominator = overText (before ++ text) denominator := by
  unfold overText
  split
  · rfl
  · simp only [String.append_assoc]

theorem renderRational_eq (value : Rat) :
    renderRational value = overText (toString value.num) value.den := by
  simp [renderRational, overText]

/-- The written form in front of the denominator. -/
def numeratorText : Quantity → String
  | .number value => toString value.num
  | .var name => name
  | .add left right => (add left right).render
  | .subtract left right => (subtract left right).render
  | .multiply left right => (multiply left right).render
  | .divide dividend divisor => (divide dividend divisor).render
  | .negate operand => "-" ++ operand.numeratorText

theorem render_eq_overText (quantity : Quantity) :
    quantity.render = overText quantity.numeratorText quantity.writtenDenominator := by
  induction quantity with
  | number value => exact renderRational_eq value
  | var name => rfl
  | negate operand induction =>
      rw [render, induction, append_overText, numeratorText, writtenDenominator]
  | _ => simp [numeratorText, writtenDenominator, overText]

theorem enclose_joined (first between second : String) :
    "(" ++ first ++ between ++ second ++ ")" = "(" ++ (first ++ between ++ second) ++ ")" := by
  simp only [String.append_assoc]

/-! ## Writing -/

theorem writes_number {value : Nat} (small : value ≤ maxMagnitude) :
    Writes .unary (toString value) (ReadFrom (.number value)) := by
  refine (Writes.number small).imp ?_
  rintro expression ⟨position, rfl⟩
  exact .number position value

theorem writes_negate (writes : Writes .unary text operand.ReadFrom) :
    Writes .unary ("-" ++ text) (ReadFrom (.negate operand)) := by
  refine writes.negate.imp ?_
  rintro expression ⟨position, inner, rfl, readFrom⟩
  exact readFrom.negate position

theorem writes_ofInt {value : Int} (small : value.natAbs ≤ maxMagnitude) :
    Writes .unary (toString value) (ofInt value).ReadFrom := by
  cases value with
  | ofNat value => exact writes_number small
  | negSucc value => exact writes_negate (writes_number small)

variable {leftText rightText : String}

theorem writes_add (leftWrites : Writes .product leftText left.ReadFrom)
    (rightWrites : Writes .product rightText right.ReadFrom) :
    Writes .sum (leftText ++ " + " ++ rightText) (ReadFrom (.add left right)) := by
  refine (Writes.operate (isSign_operator .add) (leftWrites.weaken (by decide)) rightWrites).imp ?_
  rintro expression ⟨position, leftExpression, rightExpression, rfl, leftRead, rightRead⟩
  exact leftRead.add rightRead position

theorem writes_subtract (leftWrites : Writes .product leftText left.ReadFrom)
    (rightWrites : Writes .product rightText right.ReadFrom) :
    Writes .sum (leftText ++ " - " ++ rightText) (ReadFrom (.subtract left right)) := by
  refine (Writes.operate (isSign_operator .subtract) (leftWrites.weaken (by decide))
    rightWrites).imp ?_
  rintro expression ⟨position, leftExpression, rightExpression, rfl, leftRead, rightRead⟩
  exact leftRead.subtract rightRead position

theorem writes_multiply (oneGround : left.isGround = true ∨ right.isGround = true)
    (leftWrites : Writes .product leftText left.ReadFrom)
    (rightWrites : Writes .unary rightText right.ReadFrom) :
    Writes .product (leftText ++ " * " ++ rightText) (ReadFrom (.multiply left right)) := by
  refine (Writes.operate (isSign_operator .multiply) leftWrites rightWrites).imp ?_
  rintro expression ⟨position, leftExpression, rightExpression, rfl, leftRead, rightRead⟩
  exact leftRead.multiply oneGround rightRead position

theorem writes_divide {divisor : Int} {between : String}
    (isSign : IsSign between Operator.divide.lexeme) (nonzero : divisor ≠ 0)
    (small : divisor.natAbs ≤ maxMagnitude) (writes : Writes .product text quantity.ReadFrom) :
    Writes .product (text ++ between ++ toString divisor) (ReadFrom (.divide quantity divisor)) := by
  refine (Writes.operate isSign writes (writes_ofInt small)).imp ?_
  rintro expression ⟨position, leftExpression, rightExpression, rfl, leftRead, rightRead⟩
  exact .divide (inRange_ofInt small) (value?_ofInt small) (Int.cast_ne_zero.mpr nonzero) leftRead
    rightRead position

theorem writes_over (nonzero : denominator ≠ 0) (small : denominator ≤ maxMagnitude)
    (writes : Writes .product text quantity.ReadFrom) :
    Writes .product (overText text denominator) (quantity.overDenominator denominator).ReadFrom := by
  unfold overText overDenominator
  split
  · exact writes
  · have smallDivisor : (denominator : Int).natAbs ≤ maxMagnitude := by rwa [Int.natAbs_natCast]
    have written := writes_divide isSign_stroke (Int.natCast_ne_zero.mpr nonzero) smallDivisor writes
    rwa [Int.cast_natCast] at written

theorem Legible.writtenDenominator_le (legible : quantity.Legible) :
    quantity.writtenDenominator ≠ 0 ∧ quantity.writtenDenominator ≤ maxMagnitude := by
  have oneFits : 1 ≠ 0 ∧ 1 ≤ maxMagnitude := by decide
  induction legible with
  | @number value usable => exact ⟨value.den_nz, (Bounded.inRange_iff.mp usable).2⟩
  | negate _ induction => exact induction
  | _ => exact oneFits

theorem Legible.writes_render_of_numerator (legible : quantity.Legible)
    (writes : Writes .unary quantity.numeratorText quantity.writtenNumerator.ReadFrom) :
    Writes .product quantity.render quantity.asWritten.ReadFrom := by
  obtain ⟨nonzero, small⟩ := legible.writtenDenominator_le
  rw [render_eq_overText]
  exact writes_over nonzero small (writes.weaken (by decide))

/-- The numerator at the end of a product is its last factor, and the denominator divides the whole. -/
theorem writes_multiply_over (oneGround : left.isGround = true ∨ right.isGround = true)
    (rightLegible : right.Legible) (leftWrites : Writes .product left.render left.asWritten.ReadFrom)
    (rightWrites : Writes .unary right.numeratorText right.writtenNumerator.ReadFrom) :
    Writes .product (left.render ++ " * " ++ right.render)
      (writtenNumerator (.multiply left right)).ReadFrom := by
  obtain ⟨nonzero, small⟩ := rightLegible.writtenDenominator_le
  have factors : left.asWritten.isGround = true ∨ right.writtenNumerator.isGround = true := by
    simpa [asWritten] using oneGround
  rw [render_eq_overText right, append_overText]
  exact writes_over nonzero small (writes_multiply factors leftWrites rightWrites)

theorem writes_divide_over {divisor : Rat} (nonzero : divisor ≠ 0)
    (usable : Bounded.inRange divisor = true)
    (writes : Writes .product dividend.render dividend.asWritten.ReadFrom) :
    Writes .product (dividend.render ++ " / " ++ renderRational divisor)
      (writtenNumerator (.divide dividend divisor)).ReadFrom := by
  obtain ⟨numerator, denominator⟩ := Bounded.inRange_iff.mp usable
  rw [renderRational_eq, append_overText]
  exact writes_over divisor.den_nz denominator
    (writes_divide (isSign_operator .divide) (Rat.num_ne_zero.mpr nonzero) numerator writes)

theorem Legible.writes_numerator (legible : quantity.Legible) :
    Writes .unary quantity.numeratorText quantity.writtenNumerator.ReadFrom := by
  induction legible with
  | number usable => exact writes_ofInt (Bounded.inRange_iff.mp usable).1
  | var identifier unreserved =>
      refine (Writes.name identifier).imp ?_
      rintro expression ⟨position, rfl⟩
      exact .var unreserved position
  | add leftLegible rightLegible leftInduction rightInduction =>
      have inner := writes_add (leftLegible.writes_render_of_numerator leftInduction)
        (rightLegible.writes_render_of_numerator rightInduction)
      rw [numeratorText, render, enclose_joined]
      exact inner.parenthesized
  | subtract leftLegible rightLegible leftInduction rightInduction =>
      have inner := writes_subtract (leftLegible.writes_render_of_numerator leftInduction)
        (rightLegible.writes_render_of_numerator rightInduction)
      rw [numeratorText, render, enclose_joined]
      exact inner.parenthesized
  | multiply oneGround leftLegible rightLegible leftInduction rightInduction =>
      have inner := writes_multiply_over oneGround rightLegible
        (leftLegible.writes_render_of_numerator leftInduction) rightInduction
      rw [numeratorText, render, enclose_joined]
      exact inner.parenthesized
  | divide nonzero usable dividendLegible induction =>
      have inner := writes_divide_over nonzero usable
        (dividendLegible.writes_render_of_numerator induction)
      rw [numeratorText, render, enclose_joined]
      exact inner.parenthesized
  | negate _ induction => exact writes_negate induction

theorem Legible.writes_render (legible : quantity.Legible) :
    Writes .product quantity.render quantity.asWritten.ReadFrom :=
  legible.writes_render_of_numerator legible.writes_numerator

theorem Legible.writes_renderBare (legible : quantity.Legible) :
    Writes .sum quantity.renderBare quantity.asWritten.ReadFrom := by
  have whole : Writes .sum quantity.render quantity.asWritten.ReadFrom :=
    legible.writes_render.weaken (by decide)
  cases legible with
  | add leftLegible rightLegible =>
      rw [asWritten, writtenDenominator, overDenominator_one]
      exact writes_add leftLegible.writes_render rightLegible.writes_render
  | subtract leftLegible rightLegible =>
      rw [asWritten, writtenDenominator, overDenominator_one]
      exact writes_subtract leftLegible.writes_render rightLegible.writes_render
  | multiply oneGround leftLegible rightLegible =>
      rw [asWritten, writtenDenominator, overDenominator_one]
      exact (writes_multiply_over oneGround rightLegible leftLegible.writes_render
        rightLegible.writes_numerator).weaken (by decide)
  | _ => exact whole

end Texts

/-! ## Whole texts -/

/-- The text is read as the quantity, or refused because a part of it is out of range. -/
structure IsReadAs (text : String) (quantity : Quantity) : Prop where
  ok : quantity.InRange → parse text = .ok quantity
  outOfRange : ¬ quantity.InRange → ∃ position, parse text = .error ⟨position, .valueOutOfRange⟩

theorem isReadAs_of_writes {level : Level} {text : String}
    (writes : Writes level text quantity.ReadFrom) : IsReadAs text quantity := by
  obtain ⟨expression, readFrom, parsed, -⟩ := writes.exists_parse
  constructor
  · intro usable
    rw [parse, parsed]
    exact readFrom.ok usable
  · intro unusable
    rw [parse, parsed]
    exact readFrom.outOfRange unusable

/-- The text of the quantity is read as the quantity with its divisors as they are written. -/
structure ReadsBack (quantity : Quantity) (text : String) : Prop where
  isReadAs : IsReadAs text quantity.asWritten
  eval_eq : ∀ assignment,
    quantity.asWritten.eval assignment = (quantity.mapDivisors writtenDivisor).eval assignment
  keepsValue : quantity.HasWholeDivisors →
    ∀ assignment, quantity.asWritten.eval assignment = quantity.eval assignment

theorem Legible.readsBack (legible : quantity.Legible) {written : String}
    (isWritten : written ∈ [quantity.render, quantity.renderBare]) : quantity.ReadsBack written where
  isReadAs := by
    rcases List.mem_pair.mp isWritten with rfl | rfl
    · exact isReadAs_of_writes legible.writes_render
    · exact isReadAs_of_writes legible.writes_renderBare
  eval_eq assignment := eval_asWritten assignment quantity
  keepsValue whole := whole.eval_asWritten

end Ergo.Quantity
