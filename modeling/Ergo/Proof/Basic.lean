import Ergo.Ground.Solver
import Ergo.Program.Reader
import Ergo.Proof.Refutation

/-!
Proofs by refutation. A conclusion is proven if the solver finds that the ground goals of its
refutation have no model, and a model that it finds refutes the conclusion.
-/

namespace Ergo

inductive Outcome
  | proven
  /-- What is reported of a model: constants, and then ground atoms as they are written, with their
  values. -/
  | counterExample (assignments : List (String × String))
  | undetermined
  deriving DecidableEq, Repr

namespace Outcome

def isProven : Outcome → Bool
  | .proven => true
  | _ => false

def message : Outcome → String
  | .proven => "Theorem proven: The conclusion follows from the premises."
  | .counterExample assignments =>
      "Theorem not proven: Found a counterexample. " ++
        ", ".intercalate (assignments.map fun (text, value) => s!"{text} = {value}")
  | .undetermined => "The theorem proof is undetermined."

end Outcome

/-! ## Theories -/

/-- What the solver finds out about the goals. Of the given constants, those that the goals name are
reported. -/
def Refutation.outcomeOf (solver : Ground.Solver) (constants : List String)
    (goals : List Refutation.GroundGoal) : Outcome :=
  let formulas := goals.map Refutation.GroundGoal.formula
  match solver formulas with
  | .satisfiable model => .counterExample (model.report constants formulas)
  | .unsatisfiable => .proven
  | .unknown => .undetermined

/-- Tries to refute the negation of a conclusion. Each goal is expanded to at most `limit` ground
instances. -/
def Theory.prove (theory : Theory) (solver : Ground.Solver) (limit : Nat) (conclusion : Formula) :
    Except IllFormed Outcome := do
  theory.check conclusion
  return Refutation.outcomeOf solver (theory.constants.map Prod.snd)
    ((Refutation.of theory conclusion).groundGoals limit)

/-! ## Programs -/

/-- What is wrong with a part of a program. -/
inductive Objection
  | unreadable (error : Language.ParseError)
  | illFormed (error : IllFormed)
  deriving DecidableEq, Repr

def Objection.message : Objection → String
  | .unreadable error => error.message
  | .illFormed error => error.message

/-- A part of a program, as it is written, and what is wrong with it. -/
inductive ProofError
  | premise (text : String) (objection : Objection)
  | conclusion (text : String) (objection : Objection)
  deriving DecidableEq, Repr

def ProofError.message : ProofError → String
  | .premise text objection => s!"Error in premise '{text}': {objection.message}"
  | .conclusion text objection => s!"Error in conclusion '{text}': {objection.message}"

/-- Adds statements one after the other, and names the first that is refused. -/
def Theory.executeAll (theory : Theory) : List Statement → Except ProofError Theory
  | [] => .ok theory
  | statement :: later =>
      match theory.execute statement with
      | .error error => .error (.premise statement.render (.illFormed error))
      | .ok theory => theory.executeAll later

namespace Program

def prove (program : Program) (solver : Ground.Solver) (limit : Nat) :
    Except ProofError Outcome := do
  let theory ← Theory.empty.executeAll program.statements
  match theory.prove solver limit program.conclusion with
  | .error error => .error (.conclusion program.conclusion.render (.illFormed error))
  | .ok outcome => .ok outcome

def parseStatements : List String → Except ProofError (List Statement)
  | [] => .ok []
  | text :: later => do
      match Statement.parse text with
      | .error error => .error (.premise text (.unreadable error))
      | .ok statement => return statement :: (← parseStatements later)

def parse (premises : List String) (conclusion : String) : Except ProofError Program := do
  let statements ← parseStatements premises
  match Formula.parse conclusion with
  | .error error => .error (.conclusion conclusion (.unreadable error))
  | .ok formula => return { statements := statements, conclusion := formula }

end Program

end Ergo
