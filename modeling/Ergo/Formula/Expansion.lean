import Ergo.Formula.Substitution

/-!
Finite domains of names, and the expansion of universal quantifiers over them. A universal formula
becomes the conjunction of its instances, the last variable changing fastest. Expansion is refused
where an existential quantifier is met or where more instances arise than are allowed.
-/

namespace Ergo

/-- Names under their sorts, in the order in which they were added. -/
structure Domains where
  members : List (String × String)
  deriving DecidableEq, Repr

namespace Domains

def empty : Domains := { members := [] }

def add (domains : Domains) (sortName name : String) : Domains :=
  if domains.members.contains (sortName, name) then domains
  else { members := domains.members ++ [(sortName, name)] }

def addAll (domains : Domains) (members : List (String × String)) : Domains :=
  members.foldl (fun domains member => domains.add member.1 member.2) domains

def domain (domains : Domains) (sortName : String) : List String :=
  (domains.members.filter fun member => member.1 == sortName).map (·.2)

def isInhabited (domains : Domains) (sortName : String) : Bool :=
  !(domains.domain sortName).isEmpty

end Domains

/-- All choices of one name from each range; the last range changes fastest. -/
def choices : List (List String) → List (List String)
  | [] => [[]]
  | range :: ranges => range.flatMap fun name => (choices ranges).map (name :: ·)

/-- Instances are counted in words of this many values. -/
def countLimit : Nat := Nat.pow 2 64

/-- The product of the sizes of the ranges, if it and every product on the way fit a word. -/
def countChoices? (ranges : List (List String)) : Option Nat :=
  ranges.foldlM (fun count range =>
    let product := count * range.length
    if product < countLimit then some product else none) 1

def choiceBindings (binders names : List String) : Bindings :=
  .ofPairs (binders.zip (names.map .constant))

/-- Expands a body once for each of `instances`, each time within what the earlier ones left of
the budget. -/
def expandInstances (expand : Bindings → Nat → Option (Formula × Nat)) :
    List Bindings → Nat → Option (List Formula × Nat)
  | [], budget => some ([], budget)
  | bindings :: later, budget => do
      let (first, budget) ← expand bindings budget
      let (others, budget) ← expandInstances expand later budget
      return (first :: others, budget)

namespace Formula

mutual
/-- Expands the universal quantifiers of a formula under `bindings`, with at most `budget`
instances, and returns what is left of the budget. -/
def expandWith (domains : Domains) (sortOf : String → String) (bindings : Bindings) :
    Formula → Nat → Option (Formula × Nat)
  | .not operand, budget => do
      let (operand, budget) ← operand.expandWith domains sortOf bindings budget
      return (.not operand, budget)
  | .and parts, budget => do
      let (parts, budget) ← expandParts domains sortOf bindings parts budget
      return (.and parts, budget)
  | .or parts, budget => do
      let (parts, budget) ← expandParts domains sortOf bindings parts budget
      return (.or parts, budget)
  | .implies premise consequent, budget => do
      let (premise, budget) ← premise.expandWith domains sortOf bindings budget
      let (consequent, budget) ← consequent.expandWith domains sortOf bindings budget
      return (.implies premise consequent, budget)
  | .forSome _ _, _ => none
  | .forAll binders body, budget => do
      let ranges := binders.map fun name => domains.domain (sortOf name)
      let count ← countChoices? ranges
      if budget < count then none
      else
        let instances := (choices ranges).map fun names =>
          choiceBindings binders names ++ bindings
        let (parts, budget) ←
          expandInstances (fun bindings budget =>
            body.expandWith domains sortOf bindings budget) instances (budget - count)
        return (.and parts, budget)
  | formula, budget => some (formula.substitute bindings, budget)

def expandParts (domains : Domains) (sortOf : String → String) (bindings : Bindings) :
    List Formula → Nat → Option (List Formula × Nat)
  | [], budget => some ([], budget)
  | part :: parts, budget => do
      let (part, budget) ← part.expandWith domains sortOf bindings budget
      let (parts, budget) ← expandParts domains sortOf bindings parts budget
      return (part :: parts, budget)
end

def expand (domains : Domains) (sortOf : String → String) (limit : Nat) (formula : Formula) :
    Option Formula :=
  (formula.expandWith domains sortOf [] limit).map (·.1)

end Formula

end Ergo
