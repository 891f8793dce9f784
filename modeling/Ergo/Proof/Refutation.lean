import Ergo.FreshName
import Ergo.Formula.Expansion
import Ergo.Formula.Names
import Ergo.Formula.NegationNormal
import Ergo.Formula.Skolem
import Ergo.Text.CaseMapping
import Ergo.Theory.WellFormed

/-!
The goals that a theory and the negation of a conclusion set. Their outer existential quantifiers
are replaced by new constants, and their universal quantifiers range over the constants, the new
constants and the free variables of a sort, or over one new name if there are none.
-/

namespace Ergo

structure Refutation where
  /-- Normal formulas that cannot all hold if the conclusion follows. -/
  goals : List Formula
  domains : Domains
  sortOf : String → String

namespace Refutation

def skolemName (theory : Theory) (introduced : List SkolemConstant) (name : String) : String :=
  freshName ("sk_" ++ name) (theory.symbolNames ++ introduced.map SkolemConstant.name)

/-- The free variables of the goals that the theory declares, under their sorts. -/
def freeVariables (theory : Theory) (goals : List Formula) : List (String × String) :=
  (goals.flatMap Formula.groundNames).filterMap fun name =>
    (theory.freeVariableSort? name).map fun sortName => (sortName, name)

/-- The name that stands for the only member of a sort that has no other. -/
def witnessName (sortName : String) (taken : List String) : String :=
  freshName (Text.lower sortName ++ "_witness") taken

def inhabit (domains : Domains) (taken : List String) : List String → Domains
  | [] => domains
  | sortName :: later =>
      if domains.isInhabited sortName then inhabit domains taken later
      else
        let name := witnessName sortName taken
        inhabit (domains.add sortName name) (name :: taken) later

/-- What the universal quantifiers of the goals range over. -/
def domainsOf (theory : Theory) (introduced : List SkolemConstant) (goals : List Formula) :
    Domains :=
  let skolems := introduced.map fun constant =>
    (theory.variableSort constant.replaced, constant.name)
  let named := ((Domains.empty.addAll theory.constants).addAll skolems).addAll
    (freeVariables theory goals)
  inhabit named (theory.symbolNames ++ introduced.map SkolemConstant.name)
    ((goals.flatMap Formula.universalVariables).map theory.variableSort)

/-- The goals for a conclusion: the assertions, and the negated conclusion last. -/
def of (theory : Theory) (conclusion : Formula) : Refutation :=
  let formulas := (theory.assertions ++ [Formula.not conclusion]).map Formula.negationNormal
  let (goals, introduced) := Formula.skolemizeAll (skolemName theory) formulas
  { goals := goals
    domains := domainsOf theory introduced goals
    sortOf := theory.variableSort }

/-- A goal over its ground instances, or the goal itself if it cannot be expanded with at most
`limit` of them. -/
inductive GroundGoal
  | expanded (formula : Formula)
  | quantified (formula : Formula)

def GroundGoal.formula : GroundGoal → Formula
  | .expanded formula => formula
  | .quantified formula => formula

def GroundGoal.isQuantified : GroundGoal → Bool
  | .expanded _ => false
  | .quantified _ => true

def groundGoals (refutation : Refutation) (limit : Nat) : List GroundGoal :=
  refutation.goals.map fun goal =>
    match goal.expand refutation.domains refutation.sortOf limit with
    | some formula => .expanded formula
    | none => .quantified goal

end Refutation

end Ergo
