import Ergo.Constraint.Solver
import Ergo.Proofs.Constraint.Truth
import Ergo.Proofs.Linear.Elimination
import Mathlib.Data.Real.Basic

/-!
Solvers of constraints, and elimination as one. Over the values of its variables an affine quantity
is a linear form, and a constraint has a truth value just if all rows of one of its alternatives
hold; the search tries every choice of alternatives. So values are found just if constraints are
true under some assignment of an ordered field, and they are then true under the values found. This
is what is asked of a solver (`elimination_decides`, `elimination_reportsSolutions`,
`elimination_valuesAll`).
-/

namespace Ergo

open Ergo.Language Ergo.Linear

/-! ## Quantities as forms -/

section Forms

variable {K : Type*} [Field K] {unknowns : List String} {quantity : Quantity}

/-- Whether a quantity is affine in the variables `unknowns`. -/
structure Quantity.LinearIn (unknowns : List String) (quantity : Quantity) : Prop where
  affine : quantity.IsAffine
  known : ∀ name ∈ quantity.variableOccurrences, name ∈ unknowns

theorem dotOver_indicator_of_notMem {name : String} (absent : name ∉ unknowns)
    (assignment : String → K) :
    dotOver (unknowns.map fun other => if other = name then 1 else 0)
      (unknowns.map assignment) = 0 := by
  apply dotOver_eq_zero
  intro coefficient member
  obtain ⟨other, listed, rfl⟩ := List.mem_map.mp member
  have different : other ≠ name := ne_of_mem_of_not_mem listed absent
  simp [different]

theorem dotOver_indicator {name : String} (nodup : unknowns.Nodup) (member : name ∈ unknowns)
    (assignment : String → K) :
    dotOver (unknowns.map fun other => if other = name then 1 else 0)
      (unknowns.map assignment) = assignment name := by
  induction unknowns with
  | nil => cases member
  | cons first rest induction =>
      obtain ⟨outside, nodup⟩ := List.nodup_cons.mp nodup
      simp only [List.map_cons, dotOver_cons_cons]
      rcases List.mem_cons.mp member with rfl | later
      · simp [dotOver_indicator_of_notMem outside]
      · have different : first ≠ name := (ne_of_mem_of_not_mem later outside).symm
        simp [different, induction nodup later]

theorem Quantity.coefficients_form_of_isGround (ground : quantity.isGround = true) :
    (quantity.form unknowns).coefficients = [] := by
  induction quantity with
  | number value => rfl
  | var name => cases ground
  | add left right leftInduction rightInduction
  | subtract left right leftInduction rightInduction =>
      simp only [isGround, Bool.and_eq_true] at ground
      simp [form, Form.subtract, Form.add, Form.scale, leftInduction ground.1,
        rightInduction ground.2, addCoefficients]
  | multiply left right leftInduction rightInduction =>
      simp only [isGround, Bool.and_eq_true] at ground
      simp [form, Form.scale, ground.1, rightInduction ground.2]
  | divide dividend divisor induction => simpa [form, Form.scale] using induction ground
  | negate operand induction => simpa [form, Form.scale] using induction ground

theorem Quantity.valueAt_form_of_isGround (ground : quantity.isGround = true) (point : List K) :
    (quantity.form unknowns).valueAt point = (quantity.form unknowns).constant := by
  simp [Form.valueAt, coefficients_form_of_isGround ground]

theorem Quantity.LinearIn.valueAt_form [CharZero K] (linear : quantity.LinearIn unknowns)
    (nodup : unknowns.Nodup) (assignment : String → K) :
    (quantity.form unknowns).valueAt (unknowns.map assignment) =
      quantity.valueOver assignment := by
  obtain ⟨affine, known⟩ := linear
  induction quantity with
  | number value => simp [form, valueOver]
  | var name =>
      simp [form, valueOver, Form.valueAt,
        dotOver_indicator nodup (known name (by simp [variableOccurrences]))]
  | add left right leftInduction rightInduction
  | subtract left right leftInduction rightInduction =>
      simp only [variableOccurrences, List.forall_mem_append] at known
      simp [form, valueOver, leftInduction affine.1 known.1, rightInduction affine.2 known.2]
  | multiply left right leftInduction rightInduction =>
      simp only [variableOccurrences, List.forall_mem_append] at known
      obtain ⟨oneGround, leftAffine, rightAffine⟩ := affine
      have leftValue := leftInduction leftAffine known.1
      have rightValue := rightInduction rightAffine known.2
      rw [form, valueOver, ← leftValue, ← rightValue]
      split
      · next leftGround => rw [Form.valueAt_scale, valueAt_form_of_isGround leftGround]
      · next leftOpen =>
          have rightGround := oneGround.resolve_left leftOpen
          rw [Form.valueAt_scale, valueAt_form_of_isGround rightGround, mul_comm]
  | divide dividend divisor induction =>
      simp [form, valueOver, induction affine known, div_eq_inv_mul]
  | negate operand induction => simp [form, valueOver, induction affine known]

end Forms

/-! ## Constraints as alternatives -/

section Alternatives

variable {K : Type*} [Field K] [LinearOrder K]

/-- Whether all rows of one of the alternatives hold. -/
def AnyMet (choices : List (List Row)) (point : List K) : Prop :=
  ∃ rows ∈ choices, ∀ row ∈ rows, row.Met point

variable {point : List K}

@[simp] theorem anyMet_nil : ¬ AnyMet [] point := by simp [AnyMet]

@[simp] theorem anyMet_singleton (rows : List Row) :
    AnyMet [rows] point ↔ ∀ row ∈ rows, row.Met point := by
  simp [AnyMet]

@[simp] theorem anyMet_append (first second : List (List Row)) :
    AnyMet (first ++ second) point ↔ AnyMet first point ∨ AnyMet second point := by
  simp [AnyMet, or_and_right, exists_or]

@[simp] theorem anyMet_bothAlternatives (first second : List (List Row)) :
    AnyMet (bothAlternatives first second) point ↔
      AnyMet first point ∧ AnyMet second point := by
  simp only [AnyMet, bothAlternatives, List.mem_flatMap, List.mem_map]
  constructor
  · rintro ⟨_, ⟨rows, listed, others, otherListed, rfl⟩, met⟩
    rw [List.forall_mem_append] at met
    exact ⟨⟨rows, listed, met.1⟩, others, otherListed, met.2⟩
  · rintro ⟨⟨rows, listed, met⟩, others, otherListed, othersMet⟩
    exact ⟨_, ⟨rows, listed, others, otherListed, rfl⟩, List.forall_mem_append.mpr ⟨met, othersMet⟩⟩

theorem anyMet_everyAlternatives {unknowns : List String} {sign : Bool}
    {parts : List Constraint} :
    AnyMet (Constraint.everyAlternatives unknowns sign parts) point ↔
      ∀ part ∈ parts, AnyMet (part.alternatives unknowns sign) point := by
  induction parts with
  | nil => simp [Constraint.everyAlternatives]
  | cons part parts induction => simp [Constraint.everyAlternatives, induction]

theorem anyMet_someAlternatives {unknowns : List String} {sign : Bool}
    {parts : List Constraint} :
    AnyMet (Constraint.someAlternatives unknowns sign parts) point ↔
      ∃ part ∈ parts, AnyMet (part.alternatives unknowns sign) point := by
  induction parts with
  | nil => simp [Constraint.someAlternatives]
  | cons part parts induction => simp [Constraint.someAlternatives, induction]

variable [IsStrictOrderedRing K]

theorem Language.Comparison.anyMet_alternatives (comparison : Comparison) (left right : Form) :
    AnyMet (comparison.alternatives (left.subtract right)) point ↔
      comparison.Relates (left.valueAt point) (right.valueAt point) := by
  cases comparison with
  | equal => simp [alternatives, Row.Met, Demand.Met, Relates, sub_eq_zero]
  | notEqual =>
      rw [alternatives, ← List.singleton_append, anyMet_append]
      simp [Row.Met, Demand.Met, Relates, or_comm]
  | less | lessOrEqual | greater | greaterOrEqual =>
      simp [alternatives, Row.Met, Demand.Met, Relates]

/-- Whether every quantity of the constraint is affine in the variables `unknowns`. -/
def Constraint.LinearIn (unknowns : List String) (constraint : Constraint) : Prop :=
  ∀ quantity ∈ constraint.quantities, quantity.LinearIn unknowns

theorem Constraint.LinearIn.anyMet_alternatives {unknowns : List String}
    {constraint : Constraint} (linear : constraint.LinearIn unknowns) (nodup : unknowns.Nodup)
    (assignment : String → K) (sign : Bool) :
    AnyMet (constraint.alternatives unknowns sign) (unknowns.map assignment) ↔
      (constraint.IsTrue assignment ↔ sign = true) := by
  induction constraint generalizing sign with
  | constant value => cases value <;> cases sign <;> simp [alternatives, IsTrue]
  | compare comparison left right =>
      obtain ⟨leftLinear, rightLinear⟩ :
          left.LinearIn unknowns ∧ right.LinearIn unknowns := by
        simpa [LinearIn, quantities] using linear
      rw [alternatives, Comparison.anyMet_alternatives, leftLinear.valueAt_form nodup,
        rightLinear.valueAt_form nodup]
      cases sign <;> simp [IsTrue]
  | and parts induction =>
      have each : ∀ part ∈ parts, part.LinearIn unknowns := fun part member quantity inside =>
        linear quantity (by simpa [quantities] using ⟨part, member, inside⟩)
      have decided := fun sign part member => induction part member (each part member) sign
      cases sign with
      | true => simpa [alternatives, anyMet_everyAlternatives, IsTrue] using
          forall₂_congr (decided true)
      | false => simpa [alternatives, anyMet_someAlternatives, IsTrue] using
          exists_congr fun part => and_congr_right (decided false part)
  | or parts induction =>
      have each : ∀ part ∈ parts, part.LinearIn unknowns := fun part member quantity inside =>
        linear quantity (by simpa [quantities] using ⟨part, member, inside⟩)
      have decided := fun sign part member => induction part member (each part member) sign
      cases sign with
      | true => simpa [alternatives, anyMet_someAlternatives, IsTrue] using
          exists_congr fun part => and_congr_right (decided true part)
      | false => simpa [alternatives, anyMet_everyAlternatives, IsTrue] using
          forall₂_congr (decided false)
  | not operand induction =>
      rw [alternatives, induction (by simpa [LinearIn, quantities] using linear), IsTrue]
      cases sign <;> simp
  | implies premise consequent premiseInduction consequentInduction =>
      obtain ⟨premiseLinear, consequentLinear⟩ :
          premise.LinearIn unknowns ∧ consequent.LinearIn unknowns := by
        simpa [LinearIn, quantities, or_imp, forall_and] using linear
      cases sign <;>
        simp [alternatives, IsTrue, premiseInduction premiseLinear,
          consequentInduction consequentLinear, imp_iff_not_or]

end Alternatives

/-! ## The search -/

namespace Constraint

section Search

variable {choices : List (List (List Row))} {rows : List Row} {dimension : Nat}

theorem choose?_sound {point : List Rat} (found : choose? dimension choices rows = some point) :
    point.length = dimension ∧ (∀ row ∈ rows, row.Met point) ∧
      ∀ alternatives ∈ choices, AnyMet alternatives point := by
  induction choices generalizing rows with
  | nil => simpa using solve?_sound found
  | cons first later induction =>
      rw [choose?] at found
      split at found
      · cases found
      · obtain ⟨choice, listed, found⟩ := List.exists_of_findSome?_eq_some found
        obtain ⟨length, met, laterMet⟩ := induction found
        rw [List.forall_mem_append] at met
        exact ⟨length, met.2, List.forall_mem_cons.mpr ⟨⟨choice, listed, met.1⟩, laterMet⟩⟩

theorem choose?_complete {K : Type*} [Field K] [LinearOrder K] [IsStrictOrderedRing K]
    {point : List K} (length : point.length = dimension) (met : ∀ row ∈ rows, row.Met point)
    (each : ∀ alternatives ∈ choices, AnyMet alternatives point) :
    (choose? dimension choices rows).isSome = true := by
  induction choices generalizing rows with
  | nil => exact solve?_complete length met
  | cons first later induction =>
      obtain ⟨⟨choice, listed, choiceMet⟩, laterMet⟩ := List.forall_mem_cons.mp each
      have solvable := solve?_complete length met
      rw [choose?, Option.isNone_eq_false_iff.mpr solvable, if_neg Bool.false_ne_true,
        List.findSome?_isSome_iff]
      exact ⟨choice, listed, induction (List.forall_mem_append.mpr ⟨choiceMet, met⟩) laterMet⟩

end Search

section Solutions

variable {K : Type*} [Field K] [LinearOrder K] [IsStrictOrderedRing K]
variable {unknowns : List String} {constraints : List Constraint}

theorem exists_assignment (nodup : unknowns.Nodup) {point : List Rat}
    (length : point.length = unknowns.length) :
    ∃ assignment : String → Rat, unknowns.map assignment = point := by
  refine ⟨fun name => point.getD (unknowns.idxOf name) 0, ?_⟩
  apply List.ext_getElem (by simp [length])
  intro index inUnknowns inPoint
  simp [nodup.idxOf_getElem, inPoint]

/-- The constraints are true under the values that are found. -/
theorem solution?_sound (nodup : unknowns.Nodup)
    (linear : ∀ constraint ∈ constraints, constraint.LinearIn unknowns)
    {values : List (String × Rat)} (found : solution? unknowns constraints = some values) :
    ∃ assignment : String → Rat, values = unknowns.map (fun name => (name, assignment name)) ∧
      ∀ constraint ∈ constraints, constraint.IsTrue fun name => (assignment name : K) := by
  obtain ⟨point, chosen, rfl⟩ := Option.map_eq_some_iff.mp found
  obtain ⟨length, -, met⟩ := choose?_sound chosen
  obtain ⟨assignment, rfl⟩ := exists_assignment nodup length
  have paired : unknowns.zip (unknowns.map assignment) =
      unknowns.map fun name => (name, assignment name) := by
    simpa using @List.zip_map' _ _ _ id assignment unknowns
  refine ⟨assignment, paired, fun constraint member => ?_⟩
  rw [isTrue_cast_iff, ← isTrue_cast_iff (K := Rat)]
  simpa [(linear constraint member).anyMet_alternatives nodup assignment true] using
    met _ (List.mem_map_of_mem member)

/-- Values are found just if some assignment makes all constraints true. -/
theorem isSome_solution?_iff (nodup : unknowns.Nodup)
    (linear : ∀ constraint ∈ constraints, constraint.LinearIn unknowns) :
    (solution? unknowns constraints).isSome = true ↔
      ∃ assignment : String → K, ∀ constraint ∈ constraints, constraint.IsTrue assignment := by
  constructor
  · intro solved
    obtain ⟨values, found⟩ := Option.isSome_iff_exists.mp solved
    obtain ⟨assignment, -, allTrue⟩ := solution?_sound (K := K) nodup linear found
    exact ⟨_, allTrue⟩
  · rintro ⟨assignment, allTrue⟩
    rw [solution?, Option.isSome_map]
    have length : (unknowns.map assignment).length = unknowns.length := List.length_map assignment
    apply choose?_complete length (by simp)
    rw [List.forall_mem_map]
    intro constraint member
    rw [(linear constraint member).anyMet_alternatives nodup assignment true]
    simpa using allTrue constraint member

end Solutions

/-! ## Promises of solvers -/

/-- What solvers are asked about: distinct variables, and constraints that are linear in them. -/
structure WellPosed (unknowns : List String) (constraints : List Constraint) : Prop where
  nodup : unknowns.Nodup
  linear : ∀ constraint ∈ constraints, constraint.LinearIn unknowns

def Satisfiable (constraints : List Constraint) : Prop :=
  ∃ assignment : String → ℝ, ∀ constraint ∈ constraints, constraint.IsTrue assignment

namespace Solver

/-- The solver never gives up on linear constraints, and is right about them. -/
def Decides (solver : Solver) : Prop :=
  ∀ unknowns constraints, WellPosed unknowns constraints →
    solver unknowns constraints ≠ .unknown ∧
      (solver unknowns constraints = .unsatisfiable ↔ ¬ Satisfiable constraints)

/-- Some numbers that satisfy the constraints are the values of the model, as far as it has values. -/
def ReportsSolutions (solver : Solver) : Prop :=
  ∀ unknowns constraints model, WellPosed unknowns constraints →
    solver unknowns constraints = .satisfiable model →
    ∃ assignment : String → ℝ, (∀ constraint ∈ constraints, constraint.IsTrue assignment) ∧
      ∀ name ∈ unknowns, ∀ value,
        model.assigned? name = some value ∨ model.value? name = some value →
          assignment name = value

/-- Every variable can be evaluated in a model. -/
def ValuesAll (solver : Solver) : Prop :=
  ∀ unknowns constraints model, WellPosed unknowns constraints →
    solver unknowns constraints = .satisfiable model →
    ∀ name ∈ unknowns, (model.value? name).isSome = true

end Solver

theorem sublist_valued (value? : String → Option Rat) (unknowns : List String) :
    ((valued value? unknowns).map Prod.fst).Sublist unknowns := by
  rw [valued, map_fst_filterMap]
  exact List.filter_sublist

theorem map_fst_valued {value? : String → Option Rat} {unknowns : List String}
    (all : ∀ name ∈ unknowns, (value? name).isSome = true) :
    (valued value? unknowns).map Prod.fst = unknowns := by
  rw [valued, map_fst_filterMap]
  exact List.filter_eq_self.mpr all

/-! ## Elimination -/

namespace Solver

variable {unknowns : List String} {constraints : List Constraint} {model : Model}

theorem satisfiable_of_elimination (wellPosed : WellPosed unknowns constraints)
    (found : elimination unknowns constraints = .satisfiable model) :
    ∃ assignment : String → Rat,
      (∀ constraint ∈ constraints, constraint.IsTrue fun name => (assignment name : ℝ)) ∧
      ∀ name ∈ unknowns, model.assigned? name = some (assignment name) ∧
        model.value? name = some (assignment name) := by
  unfold elimination at found
  split at found
  · next values solved =>
      obtain ⟨assignment, rfl, allTrue⟩ :=
        solution?_sound (K := ℝ) wellPosed.nodup wellPosed.linear solved
      obtain rfl := Verdict.satisfiable.inj found
      exact ⟨assignment, allTrue, fun name member =>
        ⟨lookup_map_of_mem member assignment, lookup_map_of_mem member assignment⟩⟩
  · cases found

theorem elimination_decides : elimination.Decides := by
  intro unknowns constraints wellPosed
  have solved := isSome_solution?_iff (K := ℝ) wellPosed.nodup wellPosed.linear
  unfold elimination Satisfiable
  rw [← solved]
  cases solution? unknowns constraints <;> simp

theorem elimination_reportsSolutions : elimination.ReportsSolutions := by
  intro unknowns constraints model wellPosed found
  obtain ⟨assignment, allTrue, valued⟩ := satisfiable_of_elimination wellPosed found
  refine ⟨fun name => assignment name, allTrue, fun name member value reported => ?_⟩
  rw [(valued name member).1, (valued name member).2, or_self, Option.some.injEq] at reported
  exact congrArg _ reported

theorem elimination_valuesAll : elimination.ValuesAll := by
  intro unknowns constraints model wellPosed found name member
  obtain ⟨assignment, -, valued⟩ := satisfiable_of_elimination wellPosed found
  rw [(valued name member).2]
  rfl

end Solver

end Constraint

end Ergo
