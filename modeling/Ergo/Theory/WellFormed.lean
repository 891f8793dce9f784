import Ergo.Theory.Basic

/-!
What a theory accepts: declarations over declared sorts, and formulas that apply declared symbols
to as many arguments, of such sorts, as they were declared with.
-/

namespace Ergo

inductive IllFormed
  | unknownSymbol (name : String)
  | wrongArity (name : String) (expected actual : Nat)
  | wrongSort (name : String) (index : Nat) (expected actual : String)
  | unknownSort (name : String)
  deriving DecidableEq, Repr

def IllFormed.message : IllFormed → String
  | .unknownSymbol name => s!"name '{name}' is not declared"
  | .wrongArity name expected actual =>
      s!"'{name}' expects {expected} argument(s), got {actual}"
  | .wrongSort name index expected actual =>
      s!"'{name}' expects sort {expected} at argument {index}, got {actual}"
  | .unknownSort name => s!"sort '{name}' is not declared"

/-- The names bound by enclosing quantifiers with their sorts, innermost first. -/
abbrev BoundSorts := List (String × String)

namespace Theory

/-! ## Formulas -/

/-- The bindings of a quantifier's variables, the last first. -/
def bindSorts (theory : Theory) (binders : List String) : BoundSorts :=
  (binders.map fun name => (name, theory.variableSort name)).reverse

def termSort (theory : Theory) (bound : BoundSorts) (term : Term) : Except IllFormed String :=
  let boundSort? :=
    match term with
    | .var name => bound.lookup name
    | .constant _ => none
  match boundSort?, theory.nameSort? term.name with
  | some sortName, _ => .ok sortName
  | none, some sortName => .ok sortName
  | none, none => .error (.unknownSymbol term.name)

/-- Checks the arguments of a symbol from `index` on against their sorts. -/
def checkArguments (theory : Theory) (bound : BoundSorts) (name : String) :
    (index : Nat) → List Term → List String → Except IllFormed Unit
  | index, argument :: arguments, expected :: later => do
      let actual ← theory.termSort bound argument
      if actual == expected then
        theory.checkArguments bound name (index + 1) arguments later
      else throw (.wrongSort name index expected actual)
  | _, _, _ => .ok ()

def checkAtom (theory : Theory) (bound : BoundSorts) (predicate : String)
    (arguments : List Term) : Except IllFormed Unit :=
  match theory.domain? predicate with
  | none => .error (.unknownSymbol predicate)
  | some domain =>
      if domain.length == arguments.length then
        theory.checkArguments bound predicate 0 arguments domain
      else .error (.wrongArity predicate domain.length arguments.length)

/-- Equality holds only between names of one sort. -/
def checkEqual (theory : Theory) (bound : BoundSorts) (left right : Term) :
    Except IllFormed Unit := do
  let expected ← theory.termSort bound left
  let actual ← theory.termSort bound right
  if expected == actual then return () else throw (.wrongSort "==" 1 expected actual)

mutual
def checkFormula (theory : Theory) (bound : BoundSorts) : Formula → Except IllFormed Unit
  | .truth => .ok ()
  | .falsity => .ok ()
  | .atom predicate arguments => theory.checkAtom bound predicate arguments
  | .equal left right => theory.checkEqual bound left right
  | .not operand => theory.checkFormula bound operand
  | .and parts => theory.checkFormulas bound parts
  | .or parts => theory.checkFormulas bound parts
  | .implies premise consequent => do
      theory.checkFormula bound premise
      theory.checkFormula bound consequent
  | .forAll binders body => theory.checkFormula (theory.bindSorts binders ++ bound) body
  | .forSome binders body => theory.checkFormula (theory.bindSorts binders ++ bound) body

def checkFormulas (theory : Theory) (bound : BoundSorts) :
    List Formula → Except IllFormed Unit
  | [] => .ok ()
  | part :: parts => do
      theory.checkFormula bound part
      theory.checkFormulas bound parts
end

def check (theory : Theory) (formula : Formula) : Except IllFormed Unit :=
  theory.checkFormula [] formula

/-! ## Statements -/

def checkSorts (theory : Theory) (sorts : List String) : Except IllFormed Unit :=
  match sorts.find? fun sortName => !theory.sorts.contains sortName with
  | some sortName => .error (.unknownSort sortName)
  | none => .ok ()

def addSymbol (theory : Theory) (declaration : Declaration) : Theory :=
  if (theory.lookup? declaration.name).isSome then theory
  else { theory with symbols := theory.symbols ++ [declaration] }

def declare (theory : Theory) : Declaration → Except IllFormed Theory
  | .sort name => .ok { theory with sorts := theory.sorts.insert name }
  | declaration => do
      theory.checkSorts declaration.namedSorts
      return theory.addSymbol declaration

def execute (theory : Theory) : Statement → Except IllFormed Theory
  | .declare declaration => theory.declare declaration
  | .assert formula => do
      theory.check formula
      return { theory with assertions := theory.assertions ++ [formula] }

end Theory

end Ergo
