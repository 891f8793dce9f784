import Ergo.Formula.Names
import Ergo.Formula.Printer

/-!
Ground sentences: atoms over names, with a sign, joined by conjunction and disjunction. A formula
becomes a sentence by moving its negations to the atoms; a quantified part of a formula, of which
nothing is known, becomes the true sentence.
-/

namespace Ergo.Ground

inductive Atom
  | holds (predicate : String) (arguments : List String)
  | same (left right : String)
  deriving DecidableEq, Repr, Hashable

inductive Sentence
  | literal (sign : Bool) (atom : Atom)
  | all (parts : List Sentence)
  | any (parts : List Sentence)
  deriving Repr

namespace Sentence

/-- Induction in which the parts of a sentence are met as members of a list. -/
@[induction_eliminator]
theorem inductionOn {motive : Sentence → Prop}
    (literal : ∀ sign atom, motive (.literal sign atom))
    (all : ∀ parts, (∀ part ∈ parts, motive part) → motive (.all parts))
    (any : ∀ parts, (∀ part ∈ parts, motive part) → motive (.any parts))
    (sentence : Sentence) : motive sentence :=
  Sentence.rec (motive_1 := motive) (motive_2 := fun parts => ∀ part ∈ parts, motive part)
    literal all any
    (by simp)
    (fun _ _ headHolds tailHolds part member => by
      rcases List.mem_cons.mp member with rfl | member
      · exact headHolds
      · exact tailHolds part member)
    sentence

def verum : Sentence := .all []

def falsum : Sentence := .any []

mutual
def eval (valuation : Atom → Bool) : Sentence → Bool
  | .literal sign atom => valuation atom == sign
  | .all parts => evalAll valuation parts
  | .any parts => evalAny valuation parts

def evalAll (valuation : Atom → Bool) : List Sentence → Bool
  | [] => true
  | part :: parts => part.eval valuation && evalAll valuation parts

def evalAny (valuation : Atom → Bool) : List Sentence → Bool
  | [] => false
  | part :: parts => part.eval valuation || evalAny valuation parts
end

@[simp] theorem evalAll_eq_all (valuation : Atom → Bool) (parts : List Sentence) :
    evalAll valuation parts = parts.all (eval valuation) := by
  induction parts with
  | nil => simp [evalAll]
  | cons part parts induction => simp [evalAll, induction]

@[simp] theorem evalAny_eq_any (valuation : Atom → Bool) (parts : List Sentence) :
    evalAny valuation parts = parts.any (eval valuation) := by
  induction parts with
  | nil => simp [evalAny]
  | cons part parts induction => simp [evalAny, induction]

mutual
def atoms : Sentence → List Atom
  | .literal _ atom => [atom]
  | .all parts => partsAtoms parts
  | .any parts => partsAtoms parts

def partsAtoms : List Sentence → List Atom
  | [] => []
  | part :: parts => part.atoms ++ partsAtoms parts
end

@[simp] theorem partsAtoms_eq_flatMap (parts : List Sentence) :
    partsAtoms parts = parts.flatMap atoms := by
  induction parts with
  | nil => simp [partsAtoms]
  | cons part parts induction => simp [partsAtoms, induction]

end Sentence

/-! ## Formulas as sentences -/

mutual
/-- The sentence for a formula of the truth value `sign`. -/
def ofFormula (sign : Bool) : Formula → Sentence
  | .truth => if sign then .verum else .falsum
  | .falsity => if sign then .falsum else .verum
  | .atom predicate arguments => .literal sign (.holds predicate (arguments.map Term.name))
  | .equal left right => .literal sign (.same left.name right.name)
  | .not operand => ofFormula (!sign) operand
  | .and parts => if sign then .all (ofParts sign parts) else .any (ofParts sign parts)
  | .or parts => if sign then .any (ofParts sign parts) else .all (ofParts sign parts)
  | .implies premise consequent =>
      if sign then .any [ofFormula false premise, ofFormula true consequent]
      else .all [ofFormula true premise, ofFormula false consequent]
  | .forAll _ _ => .verum
  | .forSome _ _ => .verum

def ofParts (sign : Bool) : List Formula → List Sentence
  | [] => []
  | part :: parts => ofFormula sign part :: ofParts sign parts
end

@[simp] theorem ofParts_eq_map (sign : Bool) (parts : List Formula) :
    ofParts sign parts = parts.map (ofFormula sign) := by
  induction parts with
  | nil => simp [ofParts]
  | cons part parts induction => simp [ofParts, induction]

/-! ## Ground atoms of formulas -/

structure WrittenAtom where
  text : String
  atom : Atom
  deriving DecidableEq, Repr

mutual
/-- Applications of predicates to names that stand for themselves inside quantifiers that bind
`bound`. -/
def atomOccurrences (bound : List String) : Formula → List WrittenAtom
  | .truth => []
  | .falsity => []
  | .atom predicate arguments =>
      if arguments.all (Formula.standsFree bound) then
        [⟨renderAtom predicate arguments, .holds predicate (arguments.map Term.name)⟩]
      else []
  | .equal _ _ => []
  | .not operand => atomOccurrences bound operand
  | .and parts => partsAtomOccurrences bound parts
  | .or parts => partsAtomOccurrences bound parts
  | .implies premise consequent =>
      atomOccurrences bound premise ++ atomOccurrences bound consequent
  | .forAll binders body => atomOccurrences (bound ++ binders) body
  | .forSome binders body => atomOccurrences (bound ++ binders) body

def partsAtomOccurrences (bound : List String) : List Formula → List WrittenAtom
  | [] => []
  | part :: parts => atomOccurrences bound part ++ partsAtomOccurrences bound parts
end

/-- Those members of a list whose text is not among `seen` and was not met before. -/
def withNewText (seen : List String) : List WrittenAtom → List WrittenAtom
  | [] => []
  | written :: later =>
      if seen.contains written.text then withNewText seen later
      else written :: withNewText (written.text :: seen) later

/-- The ground atoms of formulas in order of first occurrence, each written form once. -/
def writtenAtoms (formulas : List Formula) : List WrittenAtom :=
  withNewText [] (formulas.flatMap (atomOccurrences []))

end Ergo.Ground
