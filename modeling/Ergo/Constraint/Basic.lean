import Ergo.Quantity.Basic

/-!
Constraints on quantities: comparisons joined by the connectives.
-/

namespace Ergo

open Ergo.Language

inductive Constraint
  | constant (value : Bool)
  | compare (comparison : Comparison) (left right : Quantity)
  | and (parts : List Constraint)
  | or (parts : List Constraint)
  | not (operand : Constraint)
  | implies (premise consequent : Constraint)
  deriving Repr

namespace Constraint

/-- Induction in which the parts of a conjunction or disjunction are met as members of a list. -/
@[induction_eliminator]
theorem inductionOn {motive : Constraint → Prop}
    (constant : ∀ value, motive (.constant value))
    (compare : ∀ comparison left right, motive (.compare comparison left right))
    (and : ∀ parts, (∀ part ∈ parts, motive part) → motive (.and parts))
    (or : ∀ parts, (∀ part ∈ parts, motive part) → motive (.or parts))
    (not : ∀ operand, motive operand → motive (.not operand))
    (implies : ∀ premise consequent, motive premise → motive consequent →
      motive (.implies premise consequent))
    (constraint : Constraint) : motive constraint :=
  Constraint.rec (motive_1 := motive) (motive_2 := fun parts => ∀ part ∈ parts, motive part)
    constant compare and or not implies
    (by simp)
    (fun _ _ headHolds tailHolds part member => by
      rcases List.mem_cons.mp member with rfl | member
      · exact headHolds
      · exact tailHolds part member)
    constraint

/-! ## Equality -/

mutual
def same : Constraint → Constraint → Bool
  | .constant value, .constant other => value == other
  | .compare comparison left right, .compare otherComparison otherLeft otherRight =>
      comparison == otherComparison && left == otherLeft && right == otherRight
  | .and parts, .and others => sameParts parts others
  | .or parts, .or others => sameParts parts others
  | .not operand, .not other => same operand other
  | .implies premise consequent, .implies otherPremise otherConsequent =>
      same premise otherPremise && same consequent otherConsequent
  | _, _ => false

def sameParts : List Constraint → List Constraint → Bool
  | [], [] => true
  | part :: parts, other :: others => same part other && sameParts parts others
  | _, _ => false
end

theorem sameParts_iff {parts : List Constraint}
    (partsDecided : ∀ part ∈ parts, ∀ other, same part other = true ↔ part = other)
    (others : List Constraint) : sameParts parts others = true ↔ parts = others := by
  induction parts generalizing others with
  | nil => cases others <;> simp [sameParts]
  | cons part parts induction =>
      cases others with
      | nil => simp [sameParts]
      | cons other others =>
          have tail := induction (fun part member =>
            partsDecided part (List.mem_cons_of_mem _ member)) others
          simp [sameParts, tail, partsDecided part (by simp) other]

theorem same_iff (constraint other : Constraint) :
    same constraint other = true ↔ constraint = other := by
  induction constraint generalizing other with
  | constant value => cases other <;> simp [same]
  | compare comparison left right => cases other <;> simp [same, and_assoc]
  | and parts induction => cases other <;> simp [same, sameParts_iff induction]
  | or parts induction => cases other <;> simp [same, sameParts_iff induction]
  | not operand induction => cases other <;> simp [same, induction]
  | implies premise consequent premiseInduction consequentInduction =>
      cases other <;> simp [same, premiseInduction, consequentInduction]

instance : DecidableEq Constraint := fun constraint other =>
  decidable_of_iff (same constraint other = true) (same_iff constraint other)

/-! ## Truth -/

mutual
/-- Whether the constraint holds when each variable has the value `assignment` gives it. -/
def holds (assignment : String → Rat) : Constraint → Bool
  | .constant value => value
  | .compare comparison left right =>
      comparison.holds (left.eval assignment) (right.eval assignment)
  | .and parts => allHold assignment parts
  | .or parts => anyHolds assignment parts
  | .not operand => !operand.holds assignment
  | .implies premise consequent => !premise.holds assignment || consequent.holds assignment

def allHold (assignment : String → Rat) : List Constraint → Bool
  | [] => true
  | part :: parts => part.holds assignment && allHold assignment parts

def anyHolds (assignment : String → Rat) : List Constraint → Bool
  | [] => false
  | part :: parts => part.holds assignment || anyHolds assignment parts
end

@[simp] theorem allHold_eq_all (assignment : String → Rat) (parts : List Constraint) :
    allHold assignment parts = parts.all (holds assignment) := by
  induction parts with
  | nil => simp [allHold]
  | cons part parts induction => simp [allHold, induction]

@[simp] theorem anyHolds_eq_any (assignment : String → Rat) (parts : List Constraint) :
    anyHolds assignment parts = parts.any (holds assignment) := by
  induction parts with
  | nil => simp [anyHolds]
  | cons part parts induction => simp [anyHolds, induction]

/-! ## Variables -/

mutual
def variableOccurrences : Constraint → List String
  | .constant _ => []
  | .compare _ left right => left.variableOccurrences ++ right.variableOccurrences
  | .and parts => partsVariableOccurrences parts
  | .or parts => partsVariableOccurrences parts
  | .not operand => operand.variableOccurrences
  | .implies premise consequent =>
      premise.variableOccurrences ++ consequent.variableOccurrences

def partsVariableOccurrences : List Constraint → List String
  | [] => []
  | part :: parts => part.variableOccurrences ++ partsVariableOccurrences parts
end

def unknowns (constraint : Constraint) : List String :=
  (NameSet.ofList constraint.variableOccurrences).names

def variablesOf (constraints : List Constraint) : List String :=
  (NameSet.ofList (constraints.flatMap variableOccurrences)).names

end Constraint

end Ergo
