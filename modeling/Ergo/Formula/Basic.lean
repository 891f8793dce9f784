import Ergo.NameSet

/-!
Many-sorted first-order formulas without function symbols. A term is a free constant or a
variable; predicates and relations apply to lists of terms, and conjunction and disjunction join
any number of parts.
-/

namespace Ergo

inductive Term
  | constant (name : String)
  | var (name : String)
  deriving DecidableEq, Repr, Hashable

def Term.name : Term → String
  | .constant name => name
  | .var name => name

inductive Formula
  | truth
  | falsity
  | atom (predicate : String) (arguments : List Term)
  | equal (left right : Term)
  | not (operand : Formula)
  | and (parts : List Formula)
  | or (parts : List Formula)
  | implies (premise consequent : Formula)
  | forAll (binders : List String) (body : Formula)
  | forSome (binders : List String) (body : Formula)
  deriving Repr, Hashable

namespace Formula

/-- Induction in which the parts of a conjunction or disjunction are met as members of a list. -/
@[induction_eliminator]
theorem inductionOn {motive : Formula → Prop}
    (truth : motive .truth)
    (falsity : motive .falsity)
    (atom : ∀ predicate arguments, motive (.atom predicate arguments))
    (equal : ∀ left right, motive (.equal left right))
    (not : ∀ operand, motive operand → motive (.not operand))
    (and : ∀ parts, (∀ part ∈ parts, motive part) → motive (.and parts))
    (or : ∀ parts, (∀ part ∈ parts, motive part) → motive (.or parts))
    (implies : ∀ premise consequent, motive premise → motive consequent →
      motive (.implies premise consequent))
    (forAll : ∀ binders body, motive body → motive (.forAll binders body))
    (forSome : ∀ binders body, motive body → motive (.forSome binders body))
    (formula : Formula) : motive formula :=
  Formula.rec (motive_1 := motive) (motive_2 := fun parts => ∀ part ∈ parts, motive part)
    truth falsity atom equal not and or implies forAll forSome
    (by simp)
    (fun _ _ headHolds tailHolds part member => by
      rcases List.mem_cons.mp member with rfl | member
      · exact headHolds
      · exact tailHolds part member)
    formula

/-! ## Equality -/

mutual
def same : Formula → Formula → Bool
  | .truth, .truth => true
  | .falsity, .falsity => true
  | .atom predicate arguments, .atom otherPredicate otherArguments =>
      predicate == otherPredicate && arguments == otherArguments
  | .equal left right, .equal otherLeft otherRight =>
      left == otherLeft && right == otherRight
  | .not operand, .not other => same operand other
  | .and parts, .and others => sameParts parts others
  | .or parts, .or others => sameParts parts others
  | .implies premise consequent, .implies otherPremise otherConsequent =>
      same premise otherPremise && same consequent otherConsequent
  | .forAll binders body, .forAll otherVariables other =>
      binders == otherVariables && same body other
  | .forSome binders body, .forSome otherVariables other =>
      binders == otherVariables && same body other
  | _, _ => false

def sameParts : List Formula → List Formula → Bool
  | [], [] => true
  | part :: parts, other :: others => same part other && sameParts parts others
  | _, _ => false
end

theorem sameParts_iff {parts : List Formula}
    (partsDecided : ∀ part ∈ parts, ∀ other, same part other = true ↔ part = other)
    (others : List Formula) :
    sameParts parts others = true ↔ parts = others := by
  induction parts generalizing others with
  | nil => cases others <;> simp [sameParts]
  | cons part parts induction =>
      cases others with
      | nil => simp [sameParts]
      | cons other others =>
          have tail := induction (fun part member =>
            partsDecided part (List.mem_cons_of_mem _ member)) others
          simp [sameParts, tail, partsDecided part (by simp) other]

theorem same_iff (formula other : Formula) : same formula other = true ↔ formula = other := by
  induction formula generalizing other with
  | truth => cases other <;> simp [same]
  | falsity => cases other <;> simp [same]
  | atom predicate arguments => cases other <;> simp [same]
  | equal left right => cases other <;> simp [same]
  | not operand induction => cases other <;> simp [same, induction]
  | and parts induction =>
      cases other <;> simp [same, sameParts_iff induction]
  | or parts induction =>
      cases other <;> simp [same, sameParts_iff induction]
  | implies premise consequent premiseInduction consequentInduction =>
      cases other <;> simp [same, premiseInduction, consequentInduction]
  | forAll binders body induction => cases other <;> simp [same, induction]
  | forSome binders body induction => cases other <;> simp [same, induction]

instance : DecidableEq Formula := fun formula other =>
  decidable_of_iff (same formula other = true) (same_iff formula other)

/-! ## Symbols -/

def constantNames (terms : List Term) : List String :=
  terms.filterMap fun
    | .constant name => some name
    | .var _ => none

mutual
/-- Occurrences of names that a declaration must introduce: predicates, constants and the
variables that quantifiers bind, from left to right. -/
def symbolOccurrences : Formula → List String
  | .truth => []
  | .falsity => []
  | .atom predicate arguments => predicate :: constantNames arguments
  | .equal left right => constantNames [left, right]
  | .not operand => operand.symbolOccurrences
  | .and parts => partsSymbolOccurrences parts
  | .or parts => partsSymbolOccurrences parts
  | .implies premise consequent => premise.symbolOccurrences ++ consequent.symbolOccurrences
  | .forAll binders body => binders ++ body.symbolOccurrences
  | .forSome binders body => binders ++ body.symbolOccurrences

def partsSymbolOccurrences : List Formula → List String
  | [] => []
  | part :: parts => part.symbolOccurrences ++ partsSymbolOccurrences parts
end

def symbols (formula : Formula) : List String :=
  (NameSet.ofList formula.symbolOccurrences).names

end Formula

end Ergo
