import Ergo.Constraint.Reader
import Ergo.Constraint.Solver
import Ergo.Quantity.Printer

/-!
Systems of constraints given as one text and solved at once.
-/

namespace Ergo

open Ergo.Language

namespace Equation

inductive Answer
  | solved (values : List (String × Rat))
  | unsolvable
  | undecided
  | invalid (error : ParseError)
  deriving DecidableEq, Repr

def Answer.ofVerdict : Verdict (List (String × Rat)) → Answer
  | .satisfiable values => .solved values
  | .unsatisfiable => .unsolvable
  | .unknown => .undecided

def solve (solver : Constraint.Solver) (text : String) : Answer :=
  match Constraint.parseList text with
  | .error error => .invalid error
  | .ok constraints =>
      let unknowns := Constraint.variablesOf constraints
      .ofVerdict ((solver unknowns constraints).map fun model =>
        Constraint.valued model.value? unknowns)

def renderValue (entry : String × Rat) : String :=
  entry.1 ++ " = " ++ renderRational entry.2

def Answer.message : Answer → String
  | .solved values => "Solution found: " ++ ", ".intercalate (values.map renderValue)
  | .unsolvable => "No solution exists for the given constraints"
  | .undecided => "Solution unknown: the solver could not decide the given constraints"
  | .invalid error => "Invalid equation: " ++ error.message

end Equation

end Ergo
