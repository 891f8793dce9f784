import Ergo.Argument.CaseText
import Ergo.Argument.Definitions
import Ergo.Argument.Shapes
import Ergo.English.Naming
import Ergo.Settings.Basic

/-!
Curated arguments. Each is recognized by the structure of its sentences or, more loosely, by key
words, and has a program of its own over three names or over names that it fixes.
-/

namespace Ergo.Argument

inductive CuratedCase
  | mortality
  | flight
  | membership
  | comparison
  | ancestry
  deriving DecidableEq, Repr

abbrev CaseNames := List String

namespace CuratedCase

def name : CuratedCase → String
  | .mortality => "socrates_mortality"
  | .flight => "bird_flight"
  | .membership => "subset_membership"
  | .comparison => "greater_than_transitivity"
  | .ancestry => "parent_ancestry"

def all : List CuratedCase :=
  [.mortality, .flight, .membership, .comparison, .ancestry]

def ofName? (name : String) : Option CuratedCase :=
  all.find? fun curated => curated.name == name

/-! ## Structure -/

def allHumansMortal : Pattern :=
  [.word ["all", "every"], .word ["humans", "human"], .word ["are", "is"], .word ["mortal"]]

def socratesHuman : Pattern :=
  [.word ["socrates"], .word ["is"], .word ["human"]]

def socratesMortal : Pattern :=
  [.word ["socrates"], .word ["is"], .word ["mortal"]]

def allBirdsFly : Pattern :=
  [.word ["all", "every"], .word ["birds", "bird"], .word ["can"], .word ["fly"]]

def birdCanNotFly : Pattern :=
  [.word ["bird"], .word ["can"], .word ["not"], .word ["fly"]]

def birdCannotFly : Pattern :=
  [.word ["bird"], .word ["cannot", "can't"], .word ["fly"]]

/-- Two captured words around `is … of`. -/
def isOf (nouns : List String) : Pattern :=
  [.any, .word ["is"], .word nouns, .word ["of"], .any]

def isGreaterThan : Pattern :=
  [.any, .word ["is"], .word ["greater"], .word ["than"], .any]

def identifiers? (words : List String) : Option CaseNames :=
  words.mapM English.constantName

/-- The two ends of a chain of two pairs, with what joins them. -/
def chain? (pairs : List (String × String)) (goal : String × String) : Option CaseNames := do
  let step ← pairs.find? fun pair =>
    pair.1 == goal.1 && pairs.any fun other => other.1 == pair.2 && other.2 == goal.2
  identifiers? [goal.1, step.2, goal.2]

/-- A member and two classes, the member in the first and the first in the second. -/
def inclusion? (subsets elements : List (String × String)) (goal : String × String) :
    Option CaseNames := do
  let subset ← subsets.find? fun subset =>
    subset.2 == goal.2 && elements.any fun element =>
      element.1 == goal.1 && element.2 == subset.1
  identifiers? [goal.1, subset.1, goal.2]

/-- The names of the case in an argument of its structure. -/
def structure? (text : CaseText) : CuratedCase → Option CaseNames
  | .mortality =>
      if text.statesAny allHumansMortal && text.statesAny socratesHuman &&
        text.concludes socratesMortal then some [] else none
  | .flight =>
      if text.statesAny allBirdsFly &&
        (text.concludes birdCanNotFly || text.concludes birdCannotFly) then some [] else none
  | .membership => do
      let element := isOf ["element", "member"]
      inclusion? (text.premisePairs (isOf ["subset"])) (text.premisePairs element)
        (← text.conclusionPair? element)
  | .comparison => do
      chain? (text.premisePairs isGreaterThan) (← text.conclusionPair? isGreaterThan)
  | .ancestry => do
      chain? (text.premisePairs (isOf ["parent"]))
        (← text.conclusionPair? (isOf ["ancestor", "parent"]))

/-! ## Key words -/

def hasKeywords (text : CaseText) : CuratedCase → Bool
  | .mortality => text.premiseContains "socrates" && text.conclusionContains "mortal"
  | .flight =>
      text.premiseContains "bird" && text.conclusionContains "not" &&
        text.conclusionContains "fly"
  | .membership => text.premiseContains "subset" && text.conclusionContains "element"
  | .comparison =>
      text.premiseContains "greater than" && text.conclusionContains "greater than"
  | .ancestry =>
      text.premiseContains "parent" &&
        (text.conclusionContains "ancestor" || text.conclusionContains "parent")

/-! ## Programs -/

def programOf (declarations : List Declaration) (formulas : List Formula)
    (conclusion : Formula) : Program :=
  { statements := ((Definitions.empty.declareAll declarations).assertAll formulas).statements
    conclusion := conclusion }

def mortalityProgram : Program :=
  programOf
    [.sort objectSort, .property "Human", .property "Mortal", .object "socrates",
      .objectVariable "x"]
    [.inclusion "Human" "Mortal", .property "Human" "socrates"]
    (.property "Mortal" "socrates")

def flightProgram : Program :=
  programOf
    [.sort objectSort, .property "Bird", .property "Fly", .object "bird", .objectVariable "x"]
    [.inclusion "Bird" "Fly", .property "Bird" "bird"]
    (.not (.property "Fly" "bird"))

/-- The three names themselves are bound by the rule that members of a part are members of the
whole. -/
def membershipProgram (element part whole : String) : Program :=
  programOf
    [.sort objectSort, .sort "Set", .relation "ElementOf" [objectSort, "Set"],
      .relation "SubsetOf" ["Set", "Set"], .constant element objectSort,
      .constant part "Set", .constant whole "Set"]
    [.link "SubsetOf" part whole, .link "ElementOf" element part,
      .forAll [element] (.forAll [part, whole]
        (.implies
          (.and [.atom "ElementOf" [.var element, .var part],
            .atom "SubsetOf" [.var part, .var whole]])
          (.atom "ElementOf" [.var element, .var whole])))]
    (.link "ElementOf" element whole)

def comparisonProgram (first second third : String) : Program :=
  programOf
    [.sort objectSort, .link "GreaterThan", .object first, .object second, .object third,
      .objectVariable "x", .objectVariable "y", .objectVariable "z"]
    [.link "GreaterThan" first second, .link "GreaterThan" second third,
      .transitivity "GreaterThan"]
    (.link "GreaterThan" first third)

def ancestryProgram (first second third : String) : Program :=
  let people := ["Person", "Person"]
  programOf
    [.sort objectSort, .sort "Person", .relation "Parent" people, .relation "Ancestor" people,
      .var "x" "Person", .var "y" "Person", .var "z" "Person",
      .constant first "Person", .constant second "Person", .constant third "Person"]
    [.link "Parent" first second, .link "Parent" second third,
      .subrelation "Parent" "Ancestor", .transitivity "Ancestor"]
    (.link "Ancestor" first third)

/-- The program of a case over three names, or over its own names if other than three are
given. -/
def program (curated : CuratedCase) (names : CaseNames) : Program :=
  match curated, names with
  | .mortality, _ => mortalityProgram
  | .flight, _ => flightProgram
  | .membership, [element, part, whole] => membershipProgram element part whole
  | .membership, _ => membershipProgram "x" "A" "B"
  | .comparison, [first, second, third] => comparisonProgram first second third
  | .comparison, _ => comparisonProgram "A" "B" "C"
  | .ancestry, [first, second, third] => ancestryProgram first second third
  | .ancestry, _ => ancestryProgram "Alice" "Bob" "Charlie"

end CuratedCase

/-! ## Libraries -/

/-- Curated cases in the order in which they are tried. -/
structure CaseLibrary where
  mode : CaseMode
  cases : List CuratedCase
  deriving DecidableEq, Repr

/-- A case that an argument is recognized as, and its program. -/
structure CaseHit where
  curated : CuratedCase
  program : Program
  deriving DecidableEq, Repr

namespace CaseLibrary

def standard (mode : CaseMode) : CaseLibrary :=
  { mode := mode, cases := CuratedCase.all }

/-- The names of a case in an argument that is recognized as the mode says. -/
def names? (library : CaseLibrary) (text : CaseText) (curated : CuratedCase) :
    Option CaseNames :=
  match library.mode with
  | .structural => curated.structure? text
  | .keyword => if curated.hasKeywords text then some [] else none
  | .disabled => none

def resolve? (library : CaseLibrary) (premises : List String) (conclusion : String) :
    Option CaseHit :=
  let text := CaseText.ofArgument premises conclusion
  library.cases.findSome? fun curated =>
    (library.names? text curated).map fun names => ⟨curated, curated.program names⟩

theorem exists_names?_of_resolve? {library : CaseLibrary} {premises : List String}
    {conclusion : String} {hit : CaseHit} (resolved : library.resolve? premises conclusion = some hit) :
    ∃ names, library.names? (CaseText.ofArgument premises conclusion) hit.curated = some names ∧
      hit.program = hit.curated.program names := by
  obtain ⟨curated, -, isHit⟩ := List.exists_of_findSome?_eq_some resolved
  obtain ⟨names, found, rfl⟩ := Option.map_eq_some_iff.mp isHit
  exact ⟨names, found, rfl⟩

end CaseLibrary

end Ergo.Argument
