import Ergo.Ground.Search
import Ergo.Verdict

/-!
Solvers of formulas. A solver is asked whether formulas have a common model in which equal names can
stand for each other. What it says of the model is reported as text: the numbers of the constants, and
the truth values of the ground atoms. The search for a model is such a solver.
-/

namespace Ergo

namespace Formula

mutual
def isQuantifierFree : Formula → Bool
  | .truth => true
  | .falsity => true
  | .atom _ _ => true
  | .equal _ _ => true
  | .not operand => operand.isQuantifierFree
  | .and parts => partsQuantifierFree parts
  | .or parts => partsQuantifierFree parts
  | .implies premise consequent => premise.isQuantifierFree && consequent.isQuantifierFree
  | .forAll _ _ => false
  | .forSome _ _ => false

def partsQuantifierFree : List Formula → Bool
  | [] => true
  | part :: parts => part.isQuantifierFree && partsQuantifierFree parts
end

@[simp] theorem partsQuantifierFree_eq_all (parts : List Formula) :
    partsQuantifierFree parts = parts.all isQuantifierFree := by
  induction parts with
  | nil => simp [partsQuantifierFree]
  | cons part parts induction => simp [partsQuantifierFree, induction]

end Formula

namespace Ground

/-- What a model has to say of names and of ground atoms. Members of all sorts are numbers, and a name
or an atom need not have a value. -/
structure Model where
  number? : String → Option Int
  truth? : Atom → Option Bool

abbrev Solver := List Formula → Verdict Model

def renderTruth (value : Bool) : String :=
  if value then "True" else "False"

/-! ## Reports -/

namespace Model

def numbers (model : Model) (names : List String) : List (String × String) :=
  names.filterMap fun name => (model.number? name).map fun number => (name, toString number)

def truths (model : Model) (atoms : List WrittenAtom) : List (String × String) :=
  atoms.filterMap fun written =>
    (model.truth? written.atom).map fun value => (written.text, renderTruth value)

/-- The values of the constants that occur in the formulas, and then of their ground atoms. -/
def report (model : Model) (constants : List String) (formulas : List Formula) :
    List (String × String) :=
  model.numbers (constants.filter fun name => formulas.any (·.groundNames.contains name)) ++
    model.truths (writtenAtoms formulas)

end Model

/-! ## The search as a solver -/

/-- The model in which whatever is not known is as expected. Names have no numbers in it. -/
def Facts.model (facts : Facts) : Model :=
  { number? := fun _ => Option.none, truth? := fun atom => some (facts.value atom) }

/-- Nothing is taken from the quantified parts of formulas: what contradicts itself without them has no
model, and what does not is left open. -/
def Solver.search : Solver := fun formulas =>
  match model? (formulas.map (ofFormula true)) with
  | none => .unsatisfiable
  | some facts =>
      if formulas.all Formula.isQuantifierFree then .satisfiable facts.model else .unknown

end Ground

end Ergo
