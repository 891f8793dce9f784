import Ergo.Ground.Facts

/-!
The search for a model of ground sentences. Sentences are simplified by what is known, literals
that must hold are added to what is known, and when nothing more follows an atom is assumed to be as
expected and then, if that fails, the opposite. Any number of names may be distinct, so a model
exists as soon as no contradiction is left.
-/

namespace Ergo.Ground

namespace Sentence

def isVerum : Sentence → Bool
  | .all [] => true
  | _ => false

def isFalsum : Sentence → Bool
  | .any [] => true
  | _ => false

def conjoin (parts : List Sentence) : Sentence :=
  if parts.any isFalsum then falsum
  else
    match parts.filter (!·.isVerum) with
    | [part] => part
    | parts => .all parts

def disjoin (parts : List Sentence) : Sentence :=
  if parts.any isVerum then verum
  else
    match parts.filter (!·.isFalsum) with
    | [part] => part
    | parts => .any parts

mutual
/-- The sentence over representatives, with the atoms whose value is known left out. -/
def simplify (facts : Facts) : Sentence → Sentence
  | .literal sign atom =>
      let atom := facts.rename atom
      match facts.value? atom with
      | some known => if known == sign then verum else falsum
      | none => .literal sign atom
  | .all parts => conjoin (simplifyParts facts parts)
  | .any parts => disjoin (simplifyParts facts parts)

def simplifyParts (facts : Facts) : List Sentence → List Sentence
  | [] => []
  | part :: parts => part.simplify facts :: simplifyParts facts parts
end

mutual
def conjuncts : Sentence → List Sentence
  | .all parts => partsConjuncts parts
  | sentence => [sentence]

def partsConjuncts : List Sentence → List Sentence
  | [] => []
  | part :: parts => part.conjuncts ++ partsConjuncts parts
end

def literal? : Sentence → Option (Bool × Atom)
  | .literal sign atom => some (sign, atom)
  | _ => none

end Sentence

def assumeAll? (facts : Facts) : List (Bool × Atom) → Option Facts
  | [] => some facts
  | (sign, atom) :: later => do
      let facts ← facts.assume? sign (facts.rename atom)
      assumeAll? facts later

/-- Simplifies the goals and adds the literals among them to what is known, for at most `rounds`
rounds. Fails if a goal becomes false. -/
def propagate? : (rounds : Nat) → Facts → List Sentence → Option (Facts × List Sentence)
  | 0, facts, goals => some (facts, goals)
  | rounds + 1, facts, goals =>
      let goals := goals.flatMap fun goal => (goal.simplify facts).conjuncts
      if goals.any Sentence.isFalsum then none
      else
        let literals := goals.filterMap Sentence.literal?
        if literals.isEmpty then some (facts, goals)
        else do
          let facts ← assumeAll? facts literals
          propagate? rounds facts (goals.filter fun goal => goal.literal?.isNone)

/-- Whether the goals hold when whatever is not known is as expected. -/
def settled (facts : Facts) (goals : List Sentence) : Bool :=
  goals.all (Sentence.eval facts.value)

/-- Whether an atom over representatives occurs in the goals and is not known. -/
def isOpen (facts : Facts) (goals : List Sentence) (atom : Atom) : Bool :=
  (facts.value? atom).isNone &&
    goals.any fun goal => goal.atoms.any fun other => facts.rename other == atom

/-- Facts under which the goals hold, found by deciding `atoms` one after the other. After each
decision what follows from it is added, in at most `rounds` rounds. -/
def search? (rounds : Nat) : List Atom → Facts → List Sentence → Option Facts
  | [], facts, goals => if settled facts goals then some facts else none
  | atom :: later, facts, goals =>
      if settled facts goals then some facts
      else if isOpen facts goals (facts.rename atom) then
        let attempt := fun sign => do
          let facts ← facts.assume? sign (facts.rename atom)
          let (facts, goals) ← propagate? rounds facts goals
          search? rounds later facts goals
        (attempt atom.expected).orElse fun _ => attempt !atom.expected
      else search? rounds later facts goals

def Atom.isEquality : Atom → Bool
  | .same _ _ => true
  | .holds _ _ => false

/-- The distinct atoms of sentences, equalities first, and each kind from the last to the
first. -/
def decisionOrder (goals : List Sentence) : List Atom :=
  let atoms := (goals.flatMap Sentence.atoms).eraseDups.reverse
  atoms.filter Atom.isEquality ++ atoms.filter (!·.isEquality)

def model? (goals : List Sentence) : Option Facts := do
  let atoms := decisionOrder goals
  let rounds := atoms.length + 1
  let (facts, goals) ← propagate? rounds .none goals
  search? rounds atoms facts goals

end Ergo.Ground
