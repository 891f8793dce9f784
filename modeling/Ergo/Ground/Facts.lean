import Ergo.Ground.Sentence

/-!
What is known of a ground model while one is searched for: which names are equal and which are
distinct, and the truth values of atoms. Equal names have one representative, and atoms are
always looked up under representatives.
-/

namespace Ergo.Ground

/-- What an atom is taken for while nothing is known of it: names are distinct, and predicates
hold. -/
def Atom.expected : Atom → Bool
  | .holds _ _ => true
  | .same _ _ => false

/-- Equal names carry the same representative; a name that is not listed in `representatives`
represents itself. -/
structure Facts where
  representatives : List (String × String)
  distinct : List (String × String)
  truth : List (Atom × Bool)

namespace Facts

def none : Facts := { representatives := [], distinct := [], truth := [] }

def representative (facts : Facts) (name : String) : String :=
  (facts.representatives.lookup name).getD name

def renameBy (name : String → String) : Atom → Atom
  | .holds predicate arguments => .holds predicate (arguments.map name)
  | .same left right => .same (name left) (name right)

def rename (facts : Facts) : Atom → Atom :=
  renameBy facts.representative

/-- The truth value that is known of an atom over representatives. -/
def value? (facts : Facts) : Atom → Option Bool
  | .holds predicate arguments => facts.truth.lookup (.holds predicate arguments)
  | .same left right =>
      if left == right then some true
      else if facts.distinct.contains (left, right) || facts.distinct.contains (right, left) then
        some false
      else Option.none

/-- The truth value of an atom in the model in which whatever is not known is as expected. -/
def value (facts : Facts) (atom : Atom) : Bool :=
  (facts.value? (facts.rename atom)).getD atom.expected

/-- Truth values of atoms, taken over one after the other under the names that `rename` gives.
Fails if two of them contradict each other. -/
def restate? (rename : Atom → Atom) (truth : List (Atom × Bool)) :
    List (Atom × Bool) → Option (List (Atom × Bool))
  | [] => some truth
  | (atom, sign) :: later =>
      match truth.lookup (rename atom) with
      | Option.none => restate? rename ((rename atom, sign) :: truth) later
      | some known => if known == sign then restate? rename truth later else Option.none

/-- Makes `left` the representative of all that `right` represents. Fails if names known to be
distinct become equal, or atoms known to differ the same. -/
def merge? (facts : Facts) (left right : String) : Option Facts := do
  let moved := fun name => if name == right then left else name
  let distinct := facts.distinct.map fun pair => (moved pair.1, moved pair.2)
  if distinct.any (fun pair => pair.1 == pair.2) then Option.none
  else
    let representatives :=
      (right, left) :: facts.representatives.map fun entry => (entry.1, moved entry.2)
    let truth ← restate? (renameBy moved) [] facts.truth
    return { representatives, distinct, truth }

/-- Adds that an atom over representatives has the truth value `sign`. Fails on a
contradiction. -/
def assume? (facts : Facts) (sign : Bool) (atom : Atom) : Option Facts :=
  match facts.value? atom, sign, atom with
  | some known, sign, _ => if known == sign then some facts else Option.none
  | Option.none, true, .same left right => facts.merge? left right
  | Option.none, false, .same left right =>
      some { facts with distinct := (left, right) :: facts.distinct }
  | Option.none, sign, atom => some { facts with truth := (atom, sign) :: facts.truth }

end Facts

end Ergo.Ground
