import Ergo.Theory.WellFormed
import Ergo.Proofs.Formula.Expansion

/-!
Sorts of the names of a formula. Main statements: the formulas that a theory accepts are well sorted
(`wellSorted_of_check`), and normal forms, Skolemized forms and expansions of well-sorted formulas
are well sorted (`WellSorted.normal`, `WellSorted.skolemizeWith`, `WellSorted.expansion`).
-/

namespace Ergo

/-- The sorts of the names that stand for themselves, of the arguments of predicates, and of the
variables that quantifiers bind. -/
structure Sorting where
  sort? : String → Option String
  domain? : String → Option (List String)
  variableSort : String → String

def Theory.sorting (theory : Theory) : Sorting :=
  { sort? := theory.nameSort?
    domain? := theory.domain?
    variableSort := theory.variableSort }

def Sorting.termSort? (sorting : Sorting) (bound : List String) : Term → Option String
  | .constant name => sorting.sort? name
  | .var name =>
      if name ∈ bound then some (sorting.variableSort name) else sorting.sort? name

namespace Formula

/-- Inside quantifiers that bind `bound`, predicates apply to terms of the sorts of their domains, and
equalities are between terms of one sort. -/
inductive WellSorted (sorting : Sorting) : List String → Formula → Prop
  | truth {bound : List String} : WellSorted sorting bound .truth
  | falsity {bound : List String} : WellSorted sorting bound .falsity
  | atom {bound : List String} {predicate : String} {arguments : List Term}
      {domain : List String} : sorting.domain? predicate = some domain →
      List.Forall₂ (fun argument sortName => sorting.termSort? bound argument = some sortName)
        arguments domain →
      WellSorted sorting bound (.atom predicate arguments)
  | equal {bound : List String} {left right : Term} (sortName : String) :
      sorting.termSort? bound left = some sortName →
      sorting.termSort? bound right = some sortName →
      WellSorted sorting bound (.equal left right)
  | not {bound : List String} {operand : Formula} :
      WellSorted sorting bound operand → WellSorted sorting bound (.not operand)
  | and {bound : List String} {parts : List Formula} :
      (∀ part ∈ parts, WellSorted sorting bound part) → WellSorted sorting bound (.and parts)
  | or {bound : List String} {parts : List Formula} :
      (∀ part ∈ parts, WellSorted sorting bound part) → WellSorted sorting bound (.or parts)
  | implies {bound : List String} {premise consequent : Formula} :
      WellSorted sorting bound premise → WellSorted sorting bound consequent →
      WellSorted sorting bound (.implies premise consequent)
  | forAll {bound : List String} (binders : List String) {body : Formula} :
      WellSorted sorting (bound ++ binders) body → WellSorted sorting bound (.forAll binders body)
  | forSome {bound : List String} (binders : List String) {body : Formula} :
      WellSorted sorting (bound ++ binders) body → WellSorted sorting bound (.forSome binders body)

/-! ## Accepted formulas -/

section Accepted

variable {theory : Theory} {bound : BoundSorts} {names : List String}

/-- The bindings list these names, each with the sort of the variable. -/
def Binds (theory : Theory) (bound : BoundSorts) (names : List String) : Prop :=
  ∀ name, bound.lookup name = if name ∈ names then some (theory.variableSort name) else none

theorem Binds.bindSorts (binds : Binds theory bound names) (binders : List String) :
    Binds theory (theory.bindSorts binders ++ bound) (names ++ binders) := by
  have own : ∀ binders : List String, Binds theory (theory.bindSorts binders) binders := by
    intro binders name
    induction binders with
    | nil => rfl
    | cons first binders induction =>
        simp only [Theory.bindSorts, List.map_cons, List.reverse_cons, List.lookup_append] at *
        rw [induction]
        by_cases inLater : name ∈ binders
        · simp [inLater]
        · by_cases isFirst : name = first
          · subst isFirst
            simp [inLater]
          · simp [inLater, List.lookup_cons, beq_false_of_ne isFirst, isFirst]
  intro name
  rw [List.lookup_append, own, binds]
  by_cases inside : name ∈ binders <;> simp [inside]

theorem Binds.termSort? (binds : Binds theory bound names) {term : Term} {sortName : String}
    (accepted : theory.termSort bound term = .ok sortName) :
    theory.sorting.termSort? names term = some sortName := by
  cases term with
  | constant name =>
      simp only [Theory.termSort, Term.name] at accepted
      cases found : theory.nameSort? name <;> simp_all [Sorting.termSort?, Theory.sorting]
  | var name =>
      simp only [Theory.termSort, Term.name, binds name] at accepted
      by_cases inside : name ∈ names
      · simp_all [Sorting.termSort?, Theory.sorting]
      · cases found : theory.nameSort? name <;> simp_all [Sorting.termSort?, Theory.sorting]

theorem Binds.arguments (binds : Binds theory bound names) {predicate : String} {index : Nat}
    {arguments : List Term} {domain : List String} (lengths : domain.length = arguments.length)
    (accepted : theory.checkArguments bound predicate index arguments domain = .ok ()) :
    List.Forall₂ (fun argument sortName =>
      theory.sorting.termSort? names argument = some sortName) arguments domain := by
  induction arguments generalizing index domain with
  | nil =>
      rw [List.length_nil, List.length_eq_zero_iff] at lengths
      rw [lengths]
      exact .nil
  | cons argument arguments induction =>
      cases domain with
      | nil => simp at lengths
      | cons expected domain =>
          simp only [Theory.checkArguments] at accepted
          cases actual : theory.termSort bound argument with
          | error error => simp [actual, bind, Except.bind] at accepted
          | ok sortName =>
              simp only [actual, bind, Except.bind] at accepted
              split at accepted
              · next same =>
                  rw [beq_iff_eq] at same
                  exact .cons (same ▸ binds.termSort? actual)
                    (induction (by simpa using lengths) accepted)
              · exact absurd accepted (by simp [throw, throwThe, MonadExceptOf.throw])

theorem checkFormulas_ok {parts : List Formula}
    (accepted : theory.checkFormulas bound parts = .ok ()) :
    ∀ part ∈ parts, theory.checkFormula bound part = .ok () := by
  induction parts with
  | nil => simp
  | cons part parts induction =>
      simp only [Theory.checkFormulas] at accepted
      cases first : theory.checkFormula bound part with
      | error error => simp [first, bind, Except.bind] at accepted
      | ok _ =>
          simp only [first, bind, Except.bind] at accepted
          intro other member
          rcases List.mem_cons.mp member with rfl | inLater
          · exact first
          · exact induction accepted other inLater

theorem wellSorted_of_checkFormula {formula : Formula} (binds : Binds theory bound names)
    (accepted : theory.checkFormula bound formula = .ok ()) :
    WellSorted theory.sorting names formula := by
  induction formula generalizing bound names with
  | truth => exact .truth
  | falsity => exact .falsity
  | atom predicate arguments =>
      simp only [Theory.checkFormula, Theory.checkAtom] at accepted
      split at accepted
      · exact absurd accepted (by simp)
      · split at accepted
        · next domain isApplied lengths =>
            exact .atom isApplied (binds.arguments (by simpa using lengths) accepted)
        · exact absurd accepted (by simp)
  | equal left right =>
      simp only [Theory.checkFormula, Theory.checkEqual] at accepted
      cases leftSort : theory.termSort bound left with
      | error error => simp [leftSort, bind, Except.bind] at accepted
      | ok expected =>
          cases rightSort : theory.termSort bound right with
          | error error => simp [leftSort, rightSort, bind, Except.bind] at accepted
          | ok actual =>
              simp only [leftSort, rightSort, bind, Except.bind] at accepted
              split at accepted
              · next same =>
                  rw [beq_iff_eq] at same
                  exact .equal expected (binds.termSort? leftSort)
                    (same ▸ binds.termSort? rightSort)
              · exact absurd accepted (by simp [throw, throwThe, MonadExceptOf.throw])
  | not operand induction => exact .not (induction binds accepted)
  | and parts induction =>
      exact .and fun part member => induction part member binds (checkFormulas_ok accepted part member)
  | or parts induction =>
      exact .or fun part member => induction part member binds (checkFormulas_ok accepted part member)
  | implies premise consequent premiseInduction consequentInduction =>
      simp only [Theory.checkFormula] at accepted
      cases first : theory.checkFormula bound premise with
      | error error => simp [first, bind, Except.bind] at accepted
      | ok _ =>
          simp only [first, bind, Except.bind] at accepted
          exact .implies (premiseInduction binds first) (consequentInduction binds accepted)
  | forAll binders body induction => exact .forAll binders (induction (binds.bindSorts binders) accepted)
  | forSome binders body induction => exact .forSome binders (induction (binds.bindSorts binders) accepted)

theorem wellSorted_of_check {formula : Formula} (accepted : theory.check formula = .ok ()) :
    WellSorted theory.sorting [] formula :=
  wellSorted_of_checkFormula (fun name => by simp) accepted

end Accepted

/-! ## Names -/

variable {sorting other : Sorting} {bound outer : List String} {formula : Formula}

theorem WellSorted.sort?_isSome (wellSorted : WellSorted sorting bound formula) {name : String}
    (occurs : name ∈ formula.groundNameOccurrences bound) : (sorting.sort? name).isSome := by
  have free : ∀ {bound : List String} {terms : List Term},
      (∀ term ∈ terms, (sorting.termSort? bound term).isSome) →
      name ∈ freeNames bound terms → (sorting.sort? name).isSome := by
    intro bound terms sorts member
    obtain ⟨term, inFree, rfl⟩ := List.mem_map.mp member
    obtain ⟨inTerms, stands⟩ := List.mem_filter.mp inFree
    have isSorted := sorts term inTerms
    cases term with
    | constant name => exact isSorted
    | var name =>
        have unbound : name ∉ bound := by simpa [standsFree] using stands
        simpa [Sorting.termSort?, unbound, Term.name] using isSorted
  induction wellSorted with
  | truth => simp [groundNameOccurrences] at occurs
  | falsity => simp [groundNameOccurrences] at occurs
  | atom _ sorts =>
      refine free (fun argument member => ?_) occurs
      obtain ⟨sortName, _, isSorted⟩ := exists_mem_right_of_forall₂ sorts member
      exact Option.isSome_iff_exists.mpr ⟨sortName, isSorted⟩
  | equal sortName leftSort rightSort => exact free (by simp [leftSort, rightSort]) occurs
  | not _ induction => exact induction occurs
  | and _ induction =>
      simp only [groundNameOccurrences, partsGroundNameOccurrences_eq_flatMap,
        List.mem_flatMap] at occurs
      obtain ⟨part, member, inside⟩ := occurs
      exact induction part member inside
  | or _ induction =>
      simp only [groundNameOccurrences, partsGroundNameOccurrences_eq_flatMap,
        List.mem_flatMap] at occurs
      obtain ⟨part, member, inside⟩ := occurs
      exact induction part member inside
  | implies _ _ premiseInduction consequentInduction =>
      rcases List.mem_append.mp occurs with inPremise | inConsequent
      · exact premiseInduction inPremise
      · exact consequentInduction inConsequent
  | forAll binders _ induction => exact induction occurs
  | forSome binders _ induction => exact induction occurs

theorem WellSorted.domain?_isSome (wellSorted : WellSorted sorting bound formula) {name : String}
    (occurs : name ∈ formula.predicates) : (sorting.domain? name).isSome := by
  induction wellSorted with
  | truth => exact absurd occurs List.not_mem_nil
  | falsity => exact absurd occurs List.not_mem_nil
  | atom isApplied _ =>
      rw [List.mem_singleton.mp occurs, isApplied]
      rfl
  | equal _ _ _ => exact absurd occurs List.not_mem_nil
  | not _ induction => exact induction occurs
  | and _ induction =>
      rw [predicates, partsPredicates_eq_flatMap, List.mem_flatMap] at occurs
      obtain ⟨part, member, inside⟩ := occurs
      exact induction part member inside
  | or _ induction =>
      rw [predicates, partsPredicates_eq_flatMap, List.mem_flatMap] at occurs
      obtain ⟨part, member, inside⟩ := occurs
      exact induction part member inside
  | implies _ _ premiseInduction consequentInduction =>
      rcases List.mem_append.mp occurs with inPremise | inConsequent
      · exact premiseInduction inPremise
      · exact consequentInduction inConsequent
  | forAll _ _ induction => exact induction occurs
  | forSome _ _ induction => exact induction occurs

theorem WellSorted.mono (wellSorted : WellSorted sorting bound formula)
    (sameVariables : ∀ name, other.variableSort name = sorting.variableSort name)
    (sameDomains : ∀ predicate, other.domain? predicate = sorting.domain? predicate)
    (names : ∀ name ∈ formula.groundNameOccurrences bound, ∀ sortName,
      sorting.sort? name = some sortName → other.sort? name = some sortName) :
    WellSorted other bound formula := by
  have terms : ∀ {bound : List String} {terms : List Term} {term : Term} {sortName : String},
      term ∈ terms → (∀ name ∈ freeNames bound terms, ∀ sortName,
        sorting.sort? name = some sortName → other.sort? name = some sortName) →
      sorting.termSort? bound term = some sortName →
      other.termSort? bound term = some sortName := by
    intro bound terms term sortName member names isSorted
    have free : standsFree bound term → sorting.sort? term.name = some sortName →
        other.sort? term.name = some sortName := fun stands =>
      names term.name (List.mem_map_of_mem (List.mem_filter.mpr ⟨member, stands⟩)) sortName
    cases term with
    | constant name => exact free rfl isSorted
    | var name =>
        by_cases inside : name ∈ bound
        · simpa [Sorting.termSort?, inside, sameVariables] using isSorted
        · simp only [Sorting.termSort?, if_neg inside] at isSorted ⊢
          exact free (by simpa [standsFree] using inside) isSorted
  induction wellSorted with
  | truth => exact .truth
  | falsity => exact .falsity
  | atom isApplied sorts =>
      refine .atom ((sameDomains _).trans isApplied) ?_
      exact forall₂_imp_of_mem sorts fun argument member sortName isSorted =>
        terms member names isSorted
  | equal sortName leftSort rightSort =>
      exact .equal sortName (terms (by simp) names leftSort) (terms (by simp) names rightSort)
  | not _ induction => exact .not (induction names)
  | and _ induction =>
      simp only [groundNameOccurrences, partsGroundNameOccurrences_eq_flatMap,
        List.mem_flatMap] at names
      exact .and fun part member => induction part member fun name inside =>
        names name ⟨part, member, inside⟩
  | or _ induction =>
      simp only [groundNameOccurrences, partsGroundNameOccurrences_eq_flatMap,
        List.mem_flatMap] at names
      exact .or fun part member => induction part member fun name inside =>
        names name ⟨part, member, inside⟩
  | implies _ _ premiseInduction consequentInduction =>
      simp only [groundNameOccurrences, List.mem_append] at names
      exact .implies (premiseInduction fun name inside => names name (.inl inside))
        (consequentInduction fun name inside => names name (.inr inside))
  | forAll binders _ induction => exact .forAll binders (induction names)
  | forSome binders _ induction => exact .forSome binders (induction names)

/-! ## Normal forms -/

theorem WellSorted.normal (wellSorted : WellSorted sorting bound formula) (negated : Bool) :
    WellSorted sorting bound (formula.normal negated) := by
  induction wellSorted generalizing negated with
  | truth => cases negated <;> constructor
  | falsity => cases negated <;> constructor
  | atom isApplied sorts =>
      cases negated
      · exact .atom isApplied sorts
      · exact .not (.atom isApplied sorts)
  | equal sortName leftSort rightSort =>
      cases negated
      · exact .equal sortName leftSort rightSort
      · exact .not (.equal sortName leftSort rightSort)
  | not _ induction => exact induction (!negated)
  | @and bound parts _ induction =>
      have each : ∀ part ∈ parts.map (Formula.normal negated), WellSorted sorting bound part := by
        simpa using fun part member => induction part member negated
      cases negated
      · simpa [Formula.normal] using WellSorted.and each
      · simpa [Formula.normal] using WellSorted.or each
  | @or bound parts _ induction =>
      have each : ∀ part ∈ parts.map (Formula.normal negated), WellSorted sorting bound part := by
        simpa using fun part member => induction part member negated
      cases negated
      · simpa [Formula.normal] using WellSorted.or each
      · simpa [Formula.normal] using WellSorted.and each
  | implies _ _ premiseInduction consequentInduction =>
      cases negated
      · exact .or (by simpa using ⟨premiseInduction true, consequentInduction false⟩)
      · exact .and (by simpa using ⟨premiseInduction false, consequentInduction true⟩)
  | forAll binders _ induction =>
      cases negated
      · exact .forAll binders (induction false)
      · exact .forSome binders (induction true)
  | forSome binders _ induction =>
      cases negated
      · exact .forSome binders (induction false)
      · exact .forAll binders (induction true)

/-! ## Substitution -/

/-- Constants are put in for variables of their sorts. -/
def SortedBindings (sorting : Sorting) (bindings : Bindings) : Prop :=
  ∀ binding ∈ bindings, ∃ name, binding.2 = .constant name ∧
    sorting.sort? name = some (sorting.variableSort binding.1)

variable {bindings : Bindings}

theorem SortedBindings.hide (sorted : SortedBindings sorting bindings) (binders : List String) :
    SortedBindings sorting (bindings.hide binders) :=
  fun binding member => sorted binding (List.mem_filter.mp member).1

theorem SortedBindings.append {more : Bindings} (moreSorted : SortedBindings sorting more)
    (sorted : SortedBindings sorting bindings) : SortedBindings sorting (more ++ bindings) := by
  intro binding member
  rcases List.mem_append.mp member with inMore | inBindings
  · exact moreSorted binding inMore
  · exact sorted binding inBindings

theorem sortedBindings_choiceBindings {binders names : List String}
    (sorts : List.Forall₂ (fun binder name =>
      sorting.sort? name = some (sorting.variableSort binder)) binders names) :
    SortedBindings sorting (choiceBindings binders names) := by
  intro binding member
  simp only [choiceBindings, Bindings.ofPairs, List.mem_reverse, List.zip_map_right,
    List.mem_map] at member
  obtain ⟨⟨binder, name⟩, inZip, rfl⟩ := member
  exact ⟨name, rfl, List.forall₂_zip sorts inZip⟩

theorem SortedBindings.termSort? (sorted : SortedBindings sorting bindings)
    (same : ∀ name, name ∈ outer ↔ name ∈ bindings.keys ∨ name ∈ bound) {term : Term}
    {sortName : String} (isSorted : sorting.termSort? outer term = some sortName) :
    sorting.termSort? bound (term.substitute bindings) = some sortName := by
  cases term with
  | constant name => exact isSorted
  | var name =>
      rw [Term.substitute]
      cases found : bindings.lookup name with
      | none =>
          have outside := Bindings.lookup_eq_none_iff_not_mem_keys.mp found
          simpa [Sorting.termSort?, same, outside] using isSorted
      | some put =>
          have member := mem_of_lookup_eq_some found
          obtain ⟨target, rfl, targetSort⟩ := sorted (name, put) member
          have inside : name ∈ outer := (same name).mpr (.inl (List.mem_map_of_mem member))
          simpa [Sorting.termSort?, inside, targetSort] using isSorted

theorem WellSorted.substitute (wellSorted : WellSorted sorting outer formula)
    (sorted : SortedBindings sorting bindings)
    (same : ∀ name, name ∈ outer ↔ name ∈ bindings.keys ∨ name ∈ bound) :
    WellSorted sorting bound (formula.substitute bindings) := by
  have inner : ∀ {outer bound binders : List String} {bindings : Bindings},
      (∀ name, name ∈ outer ↔ name ∈ bindings.keys ∨ name ∈ bound) →
      ∀ name, name ∈ outer ++ binders ↔
        name ∈ (bindings.hide binders).keys ∨ name ∈ bound ++ binders := by
    intro outer bound binders bindings same name
    rw [List.mem_append, List.mem_append, same, Bindings.mem_keys_hide]
    tauto
  induction wellSorted generalizing bound bindings with
  | truth => exact .truth
  | falsity => exact .falsity
  | atom isApplied sorts =>
      refine .atom isApplied ?_
      rw [List.forall₂_map_left_iff]
      exact sorts.imp fun _ _ isSorted => sorted.termSort? same isSorted
  | equal sortName leftSort rightSort =>
      exact .equal sortName (sorted.termSort? same leftSort) (sorted.termSort? same rightSort)
  | not _ induction => exact .not (induction sorted same)
  | and _ induction =>
      refine .and fun part member => ?_
      rw [substituteParts_eq_map] at member
      obtain ⟨before, inside, rfl⟩ := List.mem_map.mp member
      exact induction before inside sorted same
  | or _ induction =>
      refine .or fun part member => ?_
      rw [substituteParts_eq_map] at member
      obtain ⟨before, inside, rfl⟩ := List.mem_map.mp member
      exact induction before inside sorted same
  | implies _ _ premiseInduction consequentInduction =>
      exact .implies (premiseInduction sorted same) (consequentInduction sorted same)
  | forAll binders _ induction =>
      exact .forAll binders (induction (sorted.hide binders) (inner same))
  | forSome binders _ induction =>
      exact .forSome binders (induction (sorted.hide binders) (inner same))

/-! ## Skolemized forms -/

variable {naming : SkolemNaming} {introduced : List SkolemConstant}

theorem WellSorted.skolemizeWith (normal : formula.IsNormal)
    (wellSorted : WellSorted sorting outer formula) (sorted : SortedBindings sorting bindings)
    (same : ∀ name, name ∈ outer ↔ name ∈ bindings.keys)
    (constantSorts : ∀ constant ∈ (formula.skolemizeWith naming bindings introduced).2,
      sorting.sort? constant.name = some (sorting.variableSort constant.replaced)) :
    WellSorted sorting [] (formula.skolemizeWith naming bindings introduced).1 := by
  induction normal generalizing outer bindings introduced with
  | literal literal =>
      rw [literal.skolemizeWith]
      exact wellSorted.substitute sorted (by simpa using same)
  | and _ induction =>
      cases wellSorted with
      | and each =>
          apply WellSorted.and
          exact forall_mem_skolemizeParts (fun part member _ =>
            induction part member (each part member) sorted same) constantSorts
  | or _ induction =>
      cases wellSorted with
      | or each =>
          apply WellSorted.or
          exact forall_mem_skolemizeParts (fun part member _ =>
            induction part member (each part member) sorted same) constantSorts
  | forAll binders _ _ => exact wellSorted.substitute sorted (by simpa using same)
  | forSome binders _ induction =>
      cases wellSorted with
      | forSome _ bodySorted =>
          simp only [Formula.skolemizeWith, SkolemNaming.bindings_introduce,
            List.mem_append] at constantSorts ⊢
          have newSorts : List.Forall₂ (fun binder name =>
              sorting.sort? name = some (sorting.variableSort binder)) binders
              ((naming.introduce introduced binders).map SkolemConstant.name) := by
            have sorts := constantSorts
            rw [← SkolemNaming.replaced_introduce naming introduced binders]
            rw [List.forall₂_map_left_iff, List.forall₂_map_right_iff,
              SkolemNaming.replaced_introduce, List.forall₂_same]
            exact fun constant member => sorts constant (.inl member)
          apply induction bodySorted ((sortedBindings_choiceBindings newSorts).append sorted)
          · intro name
            rw [Bindings.keys_append, List.mem_append, List.mem_append,
              Bindings.mem_keys_choiceBindings (by simp), same, or_comm]
          · exact fun constant member => constantSorts constant (.inr member)

theorem wellSorted_skolemizeAll {formulas : List Formula}
    (normal : ∀ formula ∈ formulas, formula.IsNormal)
    (wellSorted : ∀ formula ∈ formulas, WellSorted sorting [] formula)
    (constantSorts : ∀ constant ∈ (skolemizeAll naming formulas).2,
      sorting.sort? constant.name = some (sorting.variableSort constant.replaced)) :
    ∀ goal ∈ (skolemizeAll naming formulas).1, WellSorted sorting [] goal := by
  refine forall_mem_skolemizeParts (fun formula member introduced sorts => ?_) constantSorts
  apply (wellSorted formula member).skolemizeWith (normal formula member)
  · simp [SortedBindings]
  · simp [Bindings.keys]
  · exact sorts

/-! ## Expansions -/

theorem WellSorted.expansion {domains : Domains} {expansion : Formula}
    (normal : formula.IsNormal) (wellSorted : WellSorted sorting outer formula)
    (sorted : SortedBindings sorting bindings)
    (same : ∀ name, name ∈ outer ↔ name ∈ bindings.keys)
    (members : ∀ sortName, ∀ name ∈ domains.domain sortName,
      sorting.sort? name = some sortName)
    (expands : Expands domains sorting.variableSort bindings formula expansion) :
    WellSorted sorting [] expansion := by
  induction normal generalizing outer bindings expansion with
  | literal literal =>
      rw [literal.eq_substitute expands]
      exact wellSorted.substitute sorted (by simpa using same)
  | and _ induction =>
      obtain ⟨expansions, rfl, each⟩ := expands.and_inv
      cases wellSorted with
      | and partsSorted =>
          refine .and fun form member => ?_
          obtain ⟨part, inside, partExpands⟩ := exists_mem_left_of_forall₂ each member
          exact induction part inside (partsSorted part inside) sorted same partExpands
  | or _ induction =>
      obtain ⟨expansions, rfl, each⟩ := expands.or_inv
      cases wellSorted with
      | or partsSorted =>
          refine .or fun form member => ?_
          obtain ⟨part, inside, partExpands⟩ := exists_mem_left_of_forall₂ each member
          exact induction part inside (partsSorted part inside) sorted same partExpands
  | forAll binders _ induction =>
      obtain ⟨expansions, rfl, each⟩ := expands.forAll_inv
      cases wellSorted with
      | forAll _ bodySorted =>
          refine .and fun form member => ?_
          obtain ⟨names, chosen, instanceExpands⟩ := exists_mem_left_of_forall₂ each member
          have sorts := (mem_instanceNames.mp chosen).flip.imp fun binder name inDomain =>
            members (sorting.variableSort binder) name inDomain
          refine induction bodySorted ((sortedBindings_choiceBindings sorts).append sorted) ?_
            instanceExpands
          intro name
          rw [Bindings.keys_append, List.mem_append, List.mem_append,
            Bindings.mem_keys_choiceBindings sorts.length_eq, same, or_comm]
  | forSome binders _ _ => exact absurd expands not_expands_forSome

end Formula

end Ergo
