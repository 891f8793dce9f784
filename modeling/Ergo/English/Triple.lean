import Ergo.English.Naming
import Ergo.English.Negation

/-!
Triples of a subject, a relation and an object that single sentences state: identity, possession,
inclusion of kinds, and comparison.
-/

namespace Ergo.English

inductive TripleKind
  | equal
  | notEqual
  | has
  | subsetOf
  | greaterThan
  | lessThan
  | other (tag : String)
  deriving DecidableEq, Repr

namespace TripleKind

def tag : TripleKind → String
  | .equal => "equal"
  | .notEqual => "not_equal"
  | .has => "has"
  | .subsetOf => "subset_of"
  | .greaterThan => "greater_than"
  | .lessThan => "less_than"
  | .other tag => tag

def named : List TripleKind :=
  [.equal, .notEqual, .has, .subsetOf, .greaterThan, .lessThan]

/-- The kind of a tag; one that is not named is kept as it is. -/
def ofTag (tag : String) : TripleKind :=
  (named.find? fun kind => kind.tag == tag).getD (.other tag)

end TripleKind

structure Triple where
  subject : String
  kind : TripleKind
  object : String
  deriving DecidableEq, Repr

namespace Sentence

/-- The nearest noun before a position, with its own position. -/
def nounBefore? (sentence : Sentence) (index : Nat) : Option (Nat × String) :=
  (backwards index).findSome? fun place => (sentence.nounAt? place).map (place, ·)

/-- The nearest noun after a position, with its own position. -/
def nounAfter? (sentence : Sentence) (index : Nat) : Option (Nat × String) :=
  (sentence.onwards (index + 1)).findSome? fun place => (sentence.nounAt? place).map (place, ·)

/-- The positions that have a word on both sides and hold one of `forms`. -/
def innerPlaces (sentence : Sentence) (forms : List String) : List Nat :=
  (span 1 (sentence.length - 1)).filter fun index => forms.contains (sentence.form index)

def identityAt? (sentence : Sentence) (index : Nat) : Option Triple := do
  let (first, subject) ← sentence.nounBefore? index
  let (last, object) ← sentence.nounAfter? index
  let negated := (span first last).any fun place =>
    ["not", "n't", "never"].contains (sentence.form place)
  return ⟨subject, if negated then .notEqual else .equal, object⟩

def possessionAt? (sentence : Sentence) (index : Nat) : Option Triple := do
  let (_, subject) ← sentence.nounBefore? index
  let (_, object) ← sentence.nounAfter? index
  return ⟨subject, .has, object⟩

/-- `all X are Y`, from the position of the quantifier. -/
def inclusionAt? (sentence : Sentence) (index : Nat) : Option Triple := do
  if ["all", "every"].contains (sentence.form index) &&
      copulas.contains (sentence.form (index + 2)) then
    let subject ← sentence.nounAt? (index + 1)
    let object ← sentence.nounAt? (index + 3)
    return ⟨subject, .subsetOf, object⟩
  else none

def comparison? : String → Option TripleKind
  | "greater" => some .greaterThan
  | "bigger" => some .greaterThan
  | "less" => some .lessThan
  | "smaller" => some .lessThan
  | _ => none

/-- `X is greater than Y`, from the position of the subject. -/
def comparisonAt? (sentence : Sentence) (index : Nat) : Option Triple := do
  let kind ← comparison? (sentence.form (index + 2))
  if copulas.contains (sentence.form (index + 1)) && sentence.form (index + 3) == "than" then
    let subject ← sentence.nounAt? index
    let object ← sentence.nounAt? (index + 4)
    return ⟨subject, kind, object⟩
  else none

/-- All triples of a sentence, by form and then by position. -/
def triples (sentence : Sentence) : List Triple :=
  (sentence.innerPlaces copulas).filterMap sentence.identityAt? ++
    (sentence.innerPlaces ["has", "have", "owns", "possesses"]).filterMap
      sentence.possessionAt? ++
    (sentence.onwards 0).filterMap sentence.inclusionAt? ++
    (sentence.onwards 0).filterMap sentence.comparisonAt?

end Sentence

end Ergo.English
