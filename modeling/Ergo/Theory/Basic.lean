import Ergo.NameSet
import Ergo.Program.Basic

/-!
Theories: the sorts and symbols declared so far and the formulas asserted over them. The first
declaration of a symbol is the one that holds.
-/

namespace Ergo

structure Theory where
  sorts : NameSet
  /-- Declarations of symbols, oldest first. -/
  symbols : List Declaration
  assertions : List Formula

namespace Theory

def empty : Theory :=
  { sorts := NameSet.empty.insert objectSort, symbols := [], assertions := [] }

def lookup? (theory : Theory) (name : String) : Option Declaration :=
  theory.symbols.find? fun declaration => declaration.name == name

def symbolNames (theory : Theory) : List String :=
  theory.symbols.map Declaration.name

/-- The sort of the constant or variable of this name. -/
def nameSort? (theory : Theory) (name : String) : Option String :=
  (theory.lookup? name).bind Declaration.sort?

/-- The argument sorts of the predicate or relation of this name. -/
def domain? (theory : Theory) (name : String) : Option (List String) :=
  (theory.lookup? name).bind Declaration.domain?

/-- The sort over which a quantifier ranges when it binds this name. -/
def variableSort (theory : Theory) (name : String) : String :=
  (theory.nameSort? name).getD objectSort

def constants (theory : Theory) : List (String × String) :=
  theory.symbols.filterMap fun
    | .constant name sortName => some (sortName, name)
    | _ => none

def freeVariableSort? (theory : Theory) (name : String) : Option String :=
  match theory.lookup? name with
  | some (.var _ sortName) => some sortName
  | _ => none

end Theory

end Ergo
