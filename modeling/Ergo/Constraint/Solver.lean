import Ergo.Constraint.Basic
import Ergo.Linear.Elimination
import Ergo.Verdict

/-!
Deciding constraints over the reals. A constraint becomes a list of alternatives, each a list of
rows; one alternative of every constraint is chosen, and a choice is given up as soon as its rows
have no common point. Since all numbers are rational, a point with rational values exists whenever
one with real values does.
-/

namespace Ergo

open Ergo.Language Ergo.Linear

/-- A quantity as a linear form in `unknowns`; a product is read as a multiple of the factor
that has variables. -/
def Quantity.form (unknowns : List String) : Quantity → Form
  | .number value => .ofConstant value
  | .var name =>
      { coefficients := unknowns.map fun other => if other == name then 1 else 0
        constant := 0 }
  | .add left right => (left.form unknowns).add (right.form unknowns)
  | .subtract left right => (left.form unknowns).subtract (right.form unknowns)
  | .multiply left right =>
      if left.isGround then (right.form unknowns).scale (left.form unknowns).constant
      else (left.form unknowns).scale (right.form unknowns).constant
  | .divide dividend divisor => (dividend.form unknowns).scale divisor⁻¹
  | .negate operand => (operand.form unknowns).scale (-1)

/-- Lists of rows of which one must hold for `difference`, left side less right side, to stand in
the given comparison with zero. -/
def Language.Comparison.alternatives (difference : Form) : Comparison → List (List Row)
  | .equal => [[⟨difference, .zero⟩]]
  | .notEqual => [[⟨difference, .positive⟩], [⟨difference.scale (-1), .positive⟩]]
  | .less => [[⟨difference.scale (-1), .positive⟩]]
  | .lessOrEqual => [[⟨difference.scale (-1), .nonnegative⟩]]
  | .greater => [[⟨difference, .positive⟩]]
  | .greaterOrEqual => [[⟨difference, .nonnegative⟩]]

/-- Every alternative of the first list together with every alternative of the second. -/
def bothAlternatives (first second : List (List Row)) : List (List Row) :=
  first.flatMap fun rows => second.map (rows ++ ·)

namespace Constraint

mutual
/-- Lists of rows of which one must hold for the constraint to have the truth value `sign`. -/
def alternatives (unknowns : List String) (sign : Bool) : Constraint → List (List Row)
  | .constant value => if value == sign then [[]] else []
  | .compare comparison left right =>
      (if sign then comparison else comparison.negate).alternatives
        ((left.form unknowns).subtract (right.form unknowns))
  | .and parts =>
      if sign then everyAlternatives unknowns sign parts
      else someAlternatives unknowns sign parts
  | .or parts =>
      if sign then someAlternatives unknowns sign parts
      else everyAlternatives unknowns sign parts
  | .not operand => operand.alternatives unknowns (!sign)
  | .implies premise consequent =>
      if sign then
        premise.alternatives unknowns false ++ consequent.alternatives unknowns true
      else
        bothAlternatives (premise.alternatives unknowns true)
          (consequent.alternatives unknowns false)

def everyAlternatives (unknowns : List String) (sign : Bool) :
    List Constraint → List (List Row)
  | [] => [[]]
  | part :: parts =>
      bothAlternatives (part.alternatives unknowns sign)
        (everyAlternatives unknowns sign parts)

def someAlternatives (unknowns : List String) (sign : Bool) :
    List Constraint → List (List Row)
  | [] => []
  | part :: parts =>
      part.alternatives unknowns sign ++ someAlternatives unknowns sign parts
end

/-- A point at which `rows` and one alternative of each remaining choice hold. -/
def choose? (dimension : Nat) : List (List (List Row)) → List Row → Option (List Rat)
  | [], rows => solve? dimension rows
  | choices :: later, rows =>
      if (solve? dimension rows).isNone then none
      else choices.findSome? fun choice => choose? dimension later (choice ++ rows)

/-- Values of `unknowns` under which all constraints hold, if there are any. -/
def solution? (unknowns : List String) (constraints : List Constraint) :
    Option (List (String × Rat)) :=
  (choose? unknowns.length (constraints.map (alternatives unknowns true)) []).map
    unknowns.zip

/-! ## Solvers -/

/-- What a model has to say of the variables: the values that it assigns, and those that come of
evaluating them. There may be none. -/
structure Model where
  assigned? : String → Option Rat
  value? : String → Option Rat

/-- What tells of the declared variables and the constraints over them whether they have a model. -/
abbrev Solver := (unknowns : List String) → List Constraint → Verdict Model

/-- The variables that have a value, each with its value. -/
def valued (value? : String → Option Rat) (unknowns : List String) : List (String × Rat) :=
  unknowns.filterMap fun name => (value? name).map (name, ·)

/-- Elimination as a solver. It never gives up, and has a value for every variable. -/
def Solver.elimination : Solver := fun unknowns constraints =>
  match solution? unknowns constraints with
  | some values => .satisfiable { assigned? := (values.lookup ·), value? := (values.lookup ·) }
  | none => .unsatisfiable

end Constraint

end Ergo
