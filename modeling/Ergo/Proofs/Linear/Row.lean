import Ergo.Linear.Row
import Mathlib.Algebra.Order.Field.Basic
import Mathlib.Data.Rat.Cast.Order
import Mathlib.Tactic.FieldSimp
import Mathlib.Tactic.Linarith
import Mathlib.Tactic.Ring

/-!
Rows at the points of any ordered field. Coefficients are rational, the values of a point need not
be: whether rows have a common point is asked of the reals and answered with rationals.
-/

namespace Ergo.Linear

variable {K : Type*} [Field K]

section Values

def dotOver : List Rat → List K → K
  | coefficient :: coefficients, value :: values =>
      coefficient * value + dotOver coefficients values
  | _, _ => 0

@[simp] theorem dotOver_nil_left (values : List K) : dotOver [] values = 0 := by
  cases values <;> rfl

@[simp] theorem dotOver_nil_right (coefficients : List Rat) :
    dotOver coefficients ([] : List K) = 0 := by
  cases coefficients <;> rfl

@[simp] theorem dotOver_cons_cons (coefficient : Rat) (coefficients : List Rat) (value : K)
    (values : List K) :
    dotOver (coefficient :: coefficients) (value :: values) =
      coefficient * value + dotOver coefficients values :=
  rfl

theorem dotOver_eq_zero {coefficients : List Rat} {values : List K}
    (zero : ∀ coefficient ∈ coefficients, coefficient = 0) : dotOver coefficients values = 0 := by
  induction coefficients generalizing values with
  | nil => simp
  | cons coefficient coefficients induction =>
      rw [List.forall_mem_cons] at zero
      cases values with
      | nil => simp
      | cons value values => simp [zero.1, induction zero.2]

namespace Form

def valueAt (form : Form) (point : List K) : K :=
  dotOver form.coefficients point + form.constant

@[simp] theorem valueAt_nil (form : Form) :
    form.valueAt ([] : List K) = form.constant := by
  simp [valueAt]

theorem valueAt_cons (form : Form) (value : K) (point : List K) :
    form.valueAt (value :: point) = form.head * value + form.tail.valueAt point := by
  obtain ⟨coefficients, constant⟩ := form
  cases coefficients with
  | nil => simp [valueAt, head, tail]
  | cons coefficient coefficients => simp [valueAt, head, tail, add_assoc]

@[simp] theorem valueAt_ofConstant (value : Rat) (point : List K) :
    (ofConstant value).valueAt point = value := by
  simp [valueAt, ofConstant]

/-- A form without the first unknown has the same value wherever that unknown is. -/
theorem valueAt_tail {form : Form} (absent : form.head = 0) (value : K) (point : List K) :
    form.tail.valueAt point = form.valueAt (value :: point) := by
  simp [valueAt_cons, absent]

end Form

end Values

section Operations

variable [CharZero K]

theorem dotOver_addCoefficients (firsts seconds : List Rat) (values : List K) :
    dotOver (addCoefficients firsts seconds) values =
      dotOver firsts values + dotOver seconds values := by
  induction firsts generalizing seconds values with
  | nil => cases seconds <;> simp [addCoefficients]
  | cons first firsts induction =>
      cases seconds with
      | nil => simp [addCoefficients]
      | cons second seconds =>
          cases values with
          | nil => simp
          | cons value values =>
              simp only [addCoefficients, dotOver_cons_cons, induction]
              push_cast
              ring

theorem dotOver_scaled (factor : Rat) (coefficients : List Rat) (values : List K) :
    dotOver (coefficients.map (factor * ·)) values = factor * dotOver coefficients values := by
  induction coefficients generalizing values with
  | nil => simp
  | cons coefficient coefficients induction =>
      cases values with
      | nil => simp
      | cons value values =>
          simp only [List.map_cons, dotOver_cons_cons, induction]
          push_cast
          ring

theorem dotOver_cast (coefficients values : List Rat) :
    dotOver coefficients (values.map ((↑) : Rat → K)) = (dot coefficients values : K) := by
  induction coefficients generalizing values with
  | nil => simp [dot]
  | cons coefficient coefficients induction =>
      cases values with
      | nil => simp [dot]
      | cons value values => simp [dot, induction]

namespace Form

theorem valueAt_cast (form : Form) (point : List Rat) :
    form.valueAt (point.map ((↑) : Rat → K)) = (form.value point : K) := by
  simp [valueAt, value, dotOver_cast]

@[simp] theorem valueAt_rat (form : Form) (point : List Rat) :
    form.valueAt point = form.value point := by
  simpa using form.valueAt_cast (K := Rat) point

@[simp] theorem valueAt_add (left right : Form) (point : List K) :
    (left.add right).valueAt point = left.valueAt point + right.valueAt point := by
  simp only [valueAt, add, dotOver_addCoefficients]
  push_cast
  ring

@[simp] theorem valueAt_scale (factor : Rat) (form : Form) (point : List K) :
    (form.scale factor).valueAt point = factor * form.valueAt point := by
  simp only [valueAt, scale, dotOver_scaled]
  push_cast
  ring

@[simp] theorem valueAt_subtract (left right : Form) (point : List K) :
    (left.subtract right).valueAt point = left.valueAt point - right.valueAt point := by
  simp [subtract, sub_eq_add_neg]

@[simp] theorem head_add (left right : Form) : (left.add right).head = left.head + right.head := by
  obtain ⟨_ | ⟨first, firsts⟩, _⟩ := left <;> obtain ⟨_ | ⟨second, seconds⟩, _⟩ := right <;>
    simp [add, addCoefficients, head]

@[simp] theorem head_scale (factor : Rat) (form : Form) :
    (form.scale factor).head = factor * form.head := by
  obtain ⟨_ | ⟨first, firsts⟩, _⟩ := form <;> simp [scale, head]

@[simp] theorem head_subtract (left right : Form) :
    (left.subtract right).head = left.head - right.head := by
  simp [subtract, sub_eq_add_neg]

/-- The value of the first unknown at which the form is zero. -/
def rootAt (form : Form) (point : List K) : K :=
  -(form.tail.valueAt point) / form.head

@[simp] theorem rootAt_rat (form : Form) (point : List Rat) :
    form.rootAt point = form.root point := by
  simp [rootAt, root]

theorem valueAt_cons_eq_mul {form : Form} (present : form.head ≠ 0) (value : K) (point : List K) :
    form.valueAt (value :: point) = form.head * (value - form.rootAt point) := by
  have nonzero : (form.head : K) ≠ 0 := by exact_mod_cast present
  rw [valueAt_cons, rootAt]
  field_simp
  ring

end Form

end Operations

section Demands

variable [LinearOrder K]

/-- Whether a number is as demanded. -/
def Demand.Met : Demand → K → Prop
  | .zero, value => value = 0
  | .nonnegative, value => 0 ≤ value
  | .positive, value => 0 < value

def Row.Met (row : Row) (point : List K) : Prop :=
  row.demand.Met (row.form.valueAt point)

namespace Demand

theorem holds_iff_met {demand : Demand} {value : Rat} :
    demand.holds value = true ↔ demand.Met value := by
  cases demand <;> simp [holds, Met]

variable [IsStrictOrderedRing K] {demand other : Demand} {value added factor : K}

theorem met_cast {value : Rat} : demand.Met (value : K) ↔ demand.Met value := by
  cases demand <;> simp [Met]

theorem met_mul (positive : 0 < factor) : demand.Met (factor * value) ↔ demand.Met value := by
  cases demand with
  | zero => simp [Met, positive.ne']
  | nonnegative => exact mul_nonneg_iff_of_pos_left positive
  | positive => exact mul_pos_iff_of_pos_left positive

theorem Met.join (first : demand.Met value) (second : other.Met added) :
    (demand.join other).Met (value + added) := by
  cases demand <;> cases other <;> simp only [Met, Demand.join] at * <;> linarith

omit [IsStrictOrderedRing K] in
theorem met_of_pos (demanded : demand ≠ .zero) (positive : 0 < value) : demand.Met value := by
  cases demand with
  | zero => exact absurd rfl demanded
  | nonnegative => exact positive.le
  | positive => exact positive

omit [IsStrictOrderedRing K] in
theorem Met.nonneg (met : demand.Met value) : 0 ≤ value := by
  cases demand with
  | zero => exact met.ge
  | nonnegative => exact met
  | positive => exact le_of_lt met

omit [IsStrictOrderedRing K] in
theorem Met.of_join_left (met : (demand.join other).Met value) (demanded : demand ≠ .zero) :
    demand.Met value := by
  cases demand with
  | zero => exact absurd rfl demanded
  | nonnegative => exact met.nonneg
  | positive => exact met

omit [IsStrictOrderedRing K] in
theorem Met.of_join_right (met : (demand.join other).Met value) (demanded : other ≠ .zero) :
    other.Met value := by
  cases other with
  | zero => exact absurd rfl demanded
  | nonnegative => exact met.nonneg
  | positive => cases demand <;> exact met

theorem Met.of_half_le (met : demand.Met value) (demanded : demand ≠ .zero)
    (above : value / 2 ≤ added) : demand.Met added := by
  cases demand with
  | zero => exact absurd rfl demanded
  | nonnegative => exact (div_nonneg met zero_le_two).trans above
  | positive => exact (half_pos met).trans_le above

end Demand

namespace Row

theorem holdsAt_iff_met {row : Row} {point : List Rat} :
    row.holdsAt point = true ↔ row.Met point := by
  simp [holdsAt, Met, Demand.holds_iff_met]

variable [IsStrictOrderedRing K] {row : Row}

theorem met_cast {point : List Rat} :
    row.Met (point.map ((↑) : Rat → K)) ↔ row.Met point := by
  rw [Met, Form.valueAt_cast, Demand.met_cast, Met, Form.valueAt_rat]

theorem met_of_isTrivial (trivial : row.isTrivial = true) (point : List K) : row.Met point := by
  simp only [isTrivial, Bool.and_eq_true, List.all_eq_true, beq_iff_eq,
    Demand.holds_iff_met] at trivial
  rw [Met, Form.valueAt, dotOver_eq_zero trivial.1, zero_add, Demand.met_cast]
  exact trivial.2

end Row

end Demands

end Ergo.Linear
