import Ergo.Formula.Basic

/-!
Names of a formula in their places: the names that quantifiers bind, and formulas in which a term is a
variable exactly where a quantifier around it binds its name.
-/

namespace Ergo

namespace Formula

/-! ## Names that quantifiers bind -/

mutual
def binderOccurrences : Formula → List String
  | .truth => []
  | .falsity => []
  | .atom _ _ => []
  | .equal _ _ => []
  | .not operand => operand.binderOccurrences
  | .and parts => partsBinderOccurrences parts
  | .or parts => partsBinderOccurrences parts
  | .implies premise consequent => premise.binderOccurrences ++ consequent.binderOccurrences
  | .forAll binders body => binders ++ body.binderOccurrences
  | .forSome binders body => binders ++ body.binderOccurrences

def partsBinderOccurrences : List Formula → List String
  | [] => []
  | part :: parts => part.binderOccurrences ++ partsBinderOccurrences parts
end

@[simp] theorem partsBinderOccurrences_eq_flatMap (parts : List Formula) :
    partsBinderOccurrences parts = parts.flatMap binderOccurrences := by
  induction parts with
  | nil => simp [partsBinderOccurrences]
  | cons part parts induction => simp [partsBinderOccurrences, induction]

@[simp] theorem partsSymbolOccurrences_eq_flatMap (parts : List Formula) :
    partsSymbolOccurrences parts = parts.flatMap symbolOccurrences := by
  induction parts with
  | nil => simp [partsSymbolOccurrences]
  | cons part parts induction => simp [partsSymbolOccurrences, induction]

@[simp] theorem mem_symbols {formula : Formula} {name : String} :
    name ∈ formula.symbols ↔ name ∈ formula.symbolOccurrences := by
  rw [symbols, ← NameSet.mem_iff_mem_names, NameSet.mem_ofList]

@[simp] theorem mem_constantNames {terms : List Term} {name : String} :
    name ∈ constantNames terms ↔ .constant name ∈ terms := by
  rw [constantNames, List.mem_filterMap]
  constructor
  · rintro ⟨term, listed, same⟩
    cases term with
    | constant other =>
        rw [← Option.some.inj same]
        exact listed
    | var other => exact absurd same (by simp)
  · intro listed
    exact ⟨.constant name, listed, rfl⟩

end Formula

/-! ## Scopes -/

/-- A variable of a usable name where that name is bound, or a constant where it is not. -/
def Term.WellScoped (usable : String → Prop) (bound : List String) : Term → Prop
  | .constant name => usable name ∧ name ∉ bound
  | .var name => usable name ∧ name ∈ bound

theorem Term.WellScoped.usable_name {usable : String → Prop} {bound : List String} {term : Term}
    (wellScoped : term.WellScoped usable bound) : usable term.name := by
  cases term with
  | constant name => exact wellScoped.1
  | var name => exact wellScoped.1

namespace Formula

/-- All names are usable, terms stand where their kind belongs, and every quantifier binds something. -/
inductive WellScoped (usable : String → Prop) : List String → Formula → Prop
  | truth {bound : List String} : WellScoped usable bound .truth
  | falsity {bound : List String} : WellScoped usable bound .falsity
  | atom {bound : List String} {predicate : String} {arguments : List Term} :
      usable predicate → (∀ argument ∈ arguments, argument.WellScoped usable bound) →
      WellScoped usable bound (.atom predicate arguments)
  | equal {bound : List String} {left right : Term} :
      left.WellScoped usable bound → right.WellScoped usable bound →
      WellScoped usable bound (.equal left right)
  | not {bound : List String} {operand : Formula} :
      WellScoped usable bound operand → WellScoped usable bound (.not operand)
  | and {bound : List String} {parts : List Formula} :
      (∀ part ∈ parts, WellScoped usable bound part) → WellScoped usable bound (.and parts)
  | or {bound : List String} {parts : List Formula} :
      (∀ part ∈ parts, WellScoped usable bound part) → WellScoped usable bound (.or parts)
  | implies {bound : List String} {premise consequent : Formula} :
      WellScoped usable bound premise → WellScoped usable bound consequent →
      WellScoped usable bound (.implies premise consequent)
  | forAll {bound binders : List String} {body : Formula} :
      binders ≠ [] → (∀ name ∈ binders, usable name) →
      WellScoped usable (bound ++ binders) body → WellScoped usable bound (.forAll binders body)
  | forSome {bound binders : List String} {body : Formula} :
      binders ≠ [] → (∀ name ∈ binders, usable name) →
      WellScoped usable (bound ++ binders) body → WellScoped usable bound (.forSome binders body)

variable {usable other : String → Prop} {bound : List String} {formula : Formula}

theorem WellScoped.usable_symbol (wellScoped : WellScoped usable bound formula) {name : String}
    (occurs : name ∈ formula.symbolOccurrences) : usable name := by
  induction wellScoped with
  | truth => simp [symbolOccurrences] at occurs
  | falsity => simp [symbolOccurrences] at occurs
  | atom predicateUsable arguments =>
      rcases List.mem_cons.mp occurs with rfl | constant
      · exact predicateUsable
      · exact (arguments _ (mem_constantNames.mp constant)).usable_name
  | @equal bound left right leftScoped rightScoped =>
      have listed := mem_constantNames.mp occurs
      simp only [List.mem_cons, List.not_mem_nil, or_false] at listed
      rcases listed with rfl | rfl
      · exact leftScoped.usable_name
      · exact rightScoped.usable_name
  | not _ induction => exact induction occurs
  | and _ induction =>
      rw [symbolOccurrences, partsSymbolOccurrences_eq_flatMap, List.mem_flatMap] at occurs
      obtain ⟨part, member, inside⟩ := occurs
      exact induction part member inside
  | or _ induction =>
      rw [symbolOccurrences, partsSymbolOccurrences_eq_flatMap, List.mem_flatMap] at occurs
      obtain ⟨part, member, inside⟩ := occurs
      exact induction part member inside
  | implies _ _ premiseInduction consequentInduction =>
      rcases List.mem_append.mp occurs with inPremise | inConsequent
      · exact premiseInduction inPremise
      · exact consequentInduction inConsequent
  | forAll _ bindersUsable _ induction =>
      rcases List.mem_append.mp occurs with inBinders | inBody
      · exact bindersUsable name inBinders
      · exact induction inBody
  | forSome _ bindersUsable _ induction =>
      rcases List.mem_append.mp occurs with inBinders | inBody
      · exact bindersUsable name inBinders
      · exact induction inBody

theorem Term.rescope {term : Term} (wellScoped : term.WellScoped usable bound)
    (constants : ∀ name, term = .constant name → other name)
    (boundUsable : ∀ name ∈ bound, other name) : term.WellScoped other bound := by
  cases term with
  | constant name => exact ⟨constants name rfl, wellScoped.2⟩
  | var name => exact ⟨boundUsable name wellScoped.2, wellScoped.2⟩

theorem WellScoped.imp (wellScoped : WellScoped usable bound formula)
    (weaker : ∀ name, usable name → other name) : WellScoped other bound formula := by
  have term : ∀ {bound : List String} {term : Term}, term.WellScoped usable bound →
      term.WellScoped other bound := by
    intro bound term termScoped
    cases term with
    | constant name => exact termScoped.imp_left (weaker name)
    | var name => exact termScoped.imp_left (weaker name)
  induction wellScoped with
  | truth => exact .truth
  | falsity => exact .falsity
  | atom predicateUsable arguments =>
      exact .atom (weaker _ predicateUsable) fun argument member => term (arguments argument member)
  | equal left right => exact .equal (term left) (term right)
  | not _ induction => exact .not induction
  | and _ induction => exact .and induction
  | or _ induction => exact .or induction
  | implies _ _ premiseInduction consequentInduction =>
      exact .implies premiseInduction consequentInduction
  | forAll nonempty bindersUsable _ induction =>
      exact .forAll nonempty (fun name member => weaker name (bindersUsable name member)) induction
  | forSome nonempty bindersUsable _ induction =>
      exact .forSome nonempty (fun name member => weaker name (bindersUsable name member)) induction

/-- Which names are usable matters only for the symbols of a formula and for what is bound around it. -/
theorem WellScoped.rescope (wellScoped : WellScoped usable bound formula)
    (symbols : ∀ name ∈ formula.symbolOccurrences, other name)
    (boundUsable : ∀ name ∈ bound, other name) : WellScoped other bound formula := by
  induction wellScoped with
  | truth => exact .truth
  | falsity => exact .falsity
  | atom _ arguments =>
      refine .atom (symbols _ List.mem_cons_self) fun argument member => ?_
      refine Term.rescope (arguments argument member) (fun name same => ?_) boundUsable
      exact symbols name (List.mem_cons_of_mem _ (mem_constantNames.mpr (same ▸ member)))
  | @equal bound left right leftScoped rightScoped =>
      refine .equal (Term.rescope leftScoped (fun name same => ?_) boundUsable)
        (Term.rescope rightScoped (fun name same => ?_) boundUsable)
      · exact symbols name (mem_constantNames.mpr (by simp [same]))
      · exact symbols name (mem_constantNames.mpr (by simp [same]))
  | not _ induction => exact .not (induction symbols boundUsable)
  | and _ induction =>
      simp only [symbolOccurrences, partsSymbolOccurrences_eq_flatMap, List.mem_flatMap] at symbols
      exact .and fun part member => induction part member
        (fun name inside => symbols name ⟨part, member, inside⟩) boundUsable
  | or _ induction =>
      simp only [symbolOccurrences, partsSymbolOccurrences_eq_flatMap, List.mem_flatMap] at symbols
      exact .or fun part member => induction part member
        (fun name inside => symbols name ⟨part, member, inside⟩) boundUsable
  | implies _ _ premiseInduction consequentInduction =>
      obtain ⟨premiseSymbols, consequentSymbols⟩ := List.forall_mem_append.mp symbols
      exact .implies (premiseInduction premiseSymbols boundUsable)
        (consequentInduction consequentSymbols boundUsable)
  | forAll nonempty _ _ induction =>
      obtain ⟨ownUsable, innerSymbols⟩ := List.forall_mem_append.mp symbols
      exact .forAll nonempty ownUsable
        (induction innerSymbols (List.forall_mem_append.mpr ⟨boundUsable, ownUsable⟩))
  | forSome nonempty _ _ induction =>
      obtain ⟨ownUsable, innerSymbols⟩ := List.forall_mem_append.mp symbols
      exact .forSome nonempty ownUsable
        (induction innerSymbols (List.forall_mem_append.mpr ⟨boundUsable, ownUsable⟩))

end Formula

end Ergo
