import Ergo.Formula.Substitution

/-!
Skolemization of the existential quantifiers of a normal formula that stand under no universal
one: each of their variables becomes a new constant. The name of a constant may depend on the
variable and on the constants introduced before it.
-/

namespace Ergo

/-- A new constant and the variable it stands for. -/
structure SkolemConstant where
  name : String
  replaced : String
  deriving DecidableEq, Repr

/-- Chooses a name for a variable's constant, given the constants introduced so far. -/
abbrev SkolemNaming := List SkolemConstant → String → String

/-- One new constant for each variable, after those `introduced` before. -/
def SkolemNaming.introduce (naming : SkolemNaming) (introduced : List SkolemConstant) :
    List String → List SkolemConstant
  | [] => []
  | name :: names =>
      let constant := ⟨naming introduced name, name⟩
      constant :: naming.introduce (introduced ++ [constant]) names

def SkolemConstant.binding (constant : SkolemConstant) : String × Term :=
  (constant.replaced, .constant constant.name)

namespace Formula

mutual
/-- The formula with its outer existential quantifiers replaced, and the constants introduced
for them after those `introduced` before. The `bindings` are those of the existential
quantifiers passed on the way. -/
def skolemizeWith (naming : SkolemNaming) (bindings : Bindings)
    (introduced : List SkolemConstant) : Formula → Formula × List SkolemConstant
  | .forSome binders body =>
      let constants := naming.introduce introduced binders
      let bindings := Bindings.ofPairs (constants.map SkolemConstant.binding) ++ bindings
      let (body, later) := body.skolemizeWith naming bindings (introduced ++ constants)
      (body, constants ++ later)
  | .and parts =>
      let (parts, constants) := skolemizeParts naming bindings introduced parts
      (.and parts, constants)
  | .or parts =>
      let (parts, constants) := skolemizeParts naming bindings introduced parts
      (.or parts, constants)
  | formula => (formula.substitute bindings, [])

def skolemizeParts (naming : SkolemNaming) (bindings : Bindings)
    (introduced : List SkolemConstant) : List Formula → List Formula × List SkolemConstant
  | [] => ([], [])
  | part :: parts =>
      let (part, constants) := part.skolemizeWith naming bindings introduced
      let (parts, later) := skolemizeParts naming bindings (introduced ++ constants) parts
      (part :: parts, constants ++ later)
end

def skolemize (naming : SkolemNaming) (introduced : List SkolemConstant) (formula : Formula) :
    Formula × List SkolemConstant :=
  formula.skolemizeWith naming [] introduced

def skolemizeAll (naming : SkolemNaming) (formulas : List Formula) :
    List Formula × List SkolemConstant :=
  skolemizeParts naming [] [] formulas

end Formula

end Ergo
