import Ergo.Proofs.Formula.Substitution

/-!
Terms of a formula that stand free: its constants, and the variables that no quantifier around them
binds. Main statements: the names of the free terms are those that stand for themselves
(`groundNameOccurrences_eq_map`), and substitution puts terms in for the free occurrences of variables,
wherever they are, and leaves all else as it is (`replacesFree_iff`).
-/

namespace Ergo

namespace Formula

/-! ## Free terms -/

mutual
/-- The constants and the variables that are not bound inside quantifiers that bind `bound`, from left
to right. -/
def freeTerms (bound : List String) : Formula → List Term
  | .truth => []
  | .falsity => []
  | .atom _ arguments => arguments.filter (standsFree bound)
  | .equal left right => [left, right].filter (standsFree bound)
  | .not operand => operand.freeTerms bound
  | .and parts => partsFreeTerms bound parts
  | .or parts => partsFreeTerms bound parts
  | .implies premise consequent => premise.freeTerms bound ++ consequent.freeTerms bound
  | .forAll binders body => body.freeTerms (bound ++ binders)
  | .forSome binders body => body.freeTerms (bound ++ binders)

def partsFreeTerms (bound : List String) : List Formula → List Term
  | [] => []
  | part :: parts => part.freeTerms bound ++ partsFreeTerms bound parts
end

@[simp] theorem partsFreeTerms_eq_flatMap (bound : List String) (parts : List Formula) :
    partsFreeTerms bound parts = parts.flatMap (freeTerms bound) := by
  induction parts with
  | nil => simp [partsFreeTerms]
  | cons part parts induction => simp [partsFreeTerms, induction]

def variableNames (terms : List Term) : List String :=
  terms.filterMap fun
    | .constant _ => none
    | .var name => some name

/-- The constants of a formula, at each of their occurrences. -/
def constants (formula : Formula) : List String :=
  constantNames (formula.freeTerms [])

/-- The variables of a formula that nothing binds, at each of their free occurrences. -/
def freeVariables (formula : Formula) : List String :=
  variableNames (formula.freeTerms [])

/-- The names that stand for themselves are those of the free terms. -/
theorem groundNameOccurrences_eq_map (formula : Formula) (bound : List String) :
    formula.groundNameOccurrences bound = (formula.freeTerms bound).map Term.name := by
  induction formula generalizing bound with
  | truth => rfl
  | falsity => rfl
  | atom predicate arguments => rfl
  | equal left right => rfl
  | not operand induction => exact induction bound
  | and parts induction =>
      rw [groundNameOccurrences, partsGroundNameOccurrences_eq_flatMap, freeTerms,
        partsFreeTerms_eq_flatMap, List.map_flatMap]
      exact List.flatMap_congr fun part member => induction part member bound
  | or parts induction =>
      rw [groundNameOccurrences, partsGroundNameOccurrences_eq_flatMap, freeTerms,
        partsFreeTerms_eq_flatMap, List.map_flatMap]
      exact List.flatMap_congr fun part member => induction part member bound
  | implies premise consequent premiseInduction consequentInduction =>
      rw [groundNameOccurrences, freeTerms, List.map_append, premiseInduction,
        consequentInduction]
  | forAll binders body induction => exact induction (bound ++ binders)
  | forSome binders body induction => exact induction (bound ++ binders)

theorem mem_groundNameOccurrences_iff {formula : Formula} {name : String} :
    name ∈ formula.groundNameOccurrences [] ↔
      name ∈ formula.constants ∨ name ∈ formula.freeVariables := by
  rw [groundNameOccurrences_eq_map, List.mem_map, constants, freeVariables, constantNames,
    variableNames, List.mem_filterMap, List.mem_filterMap, ← exists_or]
  refine exists_congr fun term => ?_
  cases term <;> simp [Term.name]

theorem mem_groundNames {formula : Formula} {name : String} :
    name ∈ formula.groundNames ↔ name ∈ formula.groundNameOccurrences [] := by
  rw [groundNames, ← NameSet.mem_iff_mem_names, NameSet.mem_ofList]

theorem mem_freeNames {bound : List String} {terms : List Term} {name : String} :
    name ∈ freeNames bound terms ↔
      ∃ term ∈ terms, standsFree bound term = true ∧ term.name = name := by
  simp only [freeNames, List.mem_map, List.mem_filter, and_assoc]

/-! ## Predicates -/

mutual
/-- The predicates and relations that a formula applies, from left to right. -/
def predicates : Formula → List String
  | .truth => []
  | .falsity => []
  | .atom predicate _ => [predicate]
  | .equal _ _ => []
  | .not operand => operand.predicates
  | .and parts => partsPredicates parts
  | .or parts => partsPredicates parts
  | .implies premise consequent => premise.predicates ++ consequent.predicates
  | .forAll _ body => body.predicates
  | .forSome _ body => body.predicates

def partsPredicates : List Formula → List String
  | [] => []
  | part :: parts => part.predicates ++ partsPredicates parts
end

@[simp] theorem partsPredicates_eq_flatMap (parts : List Formula) :
    partsPredicates parts = parts.flatMap predicates := by
  induction parts with
  | nil => simp [partsPredicates]
  | cons part parts induction => simp [partsPredicates, induction]

/-- Substitution keeps the predicates. -/
@[simp] theorem predicates_substitute (formula : Formula) (bindings : Bindings) :
    (formula.substitute bindings).predicates = formula.predicates := by
  induction formula generalizing bindings with
  | truth => rfl
  | falsity => rfl
  | atom predicate arguments => rfl
  | equal left right => rfl
  | not operand induction => exact induction bindings
  | and parts induction =>
      rw [substitute, predicates, predicates, substituteParts_eq_map, partsPredicates_eq_flatMap,
        partsPredicates_eq_flatMap, List.flatMap_map]
      exact List.flatMap_congr fun part member => induction part member bindings
  | or parts induction =>
      rw [substitute, predicates, predicates, substituteParts_eq_map, partsPredicates_eq_flatMap,
        partsPredicates_eq_flatMap, List.flatMap_map]
      exact List.flatMap_congr fun part member => induction part member bindings
  | implies premise consequent premiseInduction consequentInduction =>
      rw [substitute, predicates, predicates, premiseInduction, consequentInduction]
  | forAll binders body induction => exact induction _
  | forSome binders body induction => exact induction _

end Formula

/-! ## Replacement of free occurrences -/

/-- Inside quantifiers that bind `bound`, a variable that is free and has a binding is replaced by the
term it is bound to, and every other term is kept. -/
inductive Term.ReplacesFree (bindings : Bindings) (bound : List String) : Term → Term → Prop
  | constant (name : String) : ReplacesFree bindings bound (.constant name) (.constant name)
  | shadowed {name : String} : name ∈ bound → ReplacesFree bindings bound (.var name) (.var name)
  | kept {name : String} : name ∉ bindings.keys →
      ReplacesFree bindings bound (.var name) (.var name)
  | replaced {name : String} {term : Term} : name ∉ bound → bindings.lookup name = some term →
      ReplacesFree bindings bound (.var name) term

/-- The second formula is the first one with the free occurrences of variables that have bindings
replaced. -/
inductive Formula.ReplacesFree (bindings : Bindings) : List String → Formula → Formula → Prop
  | truth {bound : List String} : ReplacesFree bindings bound .truth .truth
  | falsity {bound : List String} : ReplacesFree bindings bound .falsity .falsity
  | atom {bound : List String} (predicate : String) {arguments others : List Term} :
      List.Forall₂ (Term.ReplacesFree bindings bound) arguments others →
      ReplacesFree bindings bound (.atom predicate arguments) (.atom predicate others)
  | equal {bound : List String} {left right otherLeft otherRight : Term} :
      Term.ReplacesFree bindings bound left otherLeft →
      Term.ReplacesFree bindings bound right otherRight →
      ReplacesFree bindings bound (.equal left right) (.equal otherLeft otherRight)
  | not {bound : List String} {operand other : Formula} : ReplacesFree bindings bound operand other →
      ReplacesFree bindings bound (.not operand) (.not other)
  | and {bound : List String} {parts others : List Formula} : parts.length = others.length →
      (∀ {part other}, (part, other) ∈ parts.zip others → ReplacesFree bindings bound part other) →
      ReplacesFree bindings bound (.and parts) (.and others)
  | or {bound : List String} {parts others : List Formula} : parts.length = others.length →
      (∀ {part other}, (part, other) ∈ parts.zip others → ReplacesFree bindings bound part other) →
      ReplacesFree bindings bound (.or parts) (.or others)
  | implies {bound : List String} {premise consequent otherPremise otherConsequent : Formula} :
      ReplacesFree bindings bound premise otherPremise →
      ReplacesFree bindings bound consequent otherConsequent →
      ReplacesFree bindings bound (.implies premise consequent) (.implies otherPremise otherConsequent)
  | forAll {bound : List String} (binders : List String) {body other : Formula} :
      ReplacesFree bindings (bound ++ binders) body other →
      ReplacesFree bindings bound (.forAll binders body) (.forAll binders other)
  | forSome {bound : List String} (binders : List String) {body other : Formula} :
      ReplacesFree bindings (bound ++ binders) body other →
      ReplacesFree bindings bound (.forSome binders body) (.forSome binders other)

section Replacement

variable {bindings : Bindings} {bound : List String}

theorem Bindings.hide_nil (bindings : Bindings) : bindings.hide [] = bindings := by
  simp [hide]

theorem Bindings.hide_hide (bindings : Bindings) (first second : List String) :
    (bindings.hide first).hide second = bindings.hide (first ++ second) := by
  rw [hide, hide, hide, List.filter_filter]
  congr 1
  funext binding
  simp [Bool.and_comm]

/-- What stands free after a substitution stood free before it and had no binding, or is put in. -/
theorem Formula.mem_freeNames_substitute (ground : bindings.Ground) {terms : List Term}
    {name : String}
    (occurs : name ∈ freeNames bound (terms.map (Term.substitute (bindings.hide bound)))) :
    name ∈ freeNames (bindings.keys ++ bound) terms ∨ name ∈ bindings.targets := by
  obtain ⟨_, member, stands, rfl⟩ := mem_freeNames.mp occurs
  obtain ⟨term, listed, rfl⟩ := List.mem_map.mp member
  cases term with
  | constant name => exact .inl (mem_freeNames.mpr ⟨.constant name, listed, rfl, rfl⟩)
  | var name =>
      rw [Term.substitute, Bindings.lookup_hide] at stands ⊢
      by_cases isBound : name ∈ bound
      · simp [isBound, standsFree] at stands
      · rw [if_neg isBound]
        cases found : bindings.lookup name with
        | none =>
            have unbound := Bindings.lookup_eq_none_iff_not_mem_keys.mp found
            exact .inl (mem_freeNames.mpr
              ⟨.var name, listed, by simp [standsFree, unbound, isBound], rfl⟩)
        | some put =>
            obtain ⟨target, isTarget, rfl⟩ := ground.lookup found
            exact .inr isTarget

theorem Formula.mem_groundNameOccurrences_substitute (ground : bindings.Ground) {formula : Formula}
    {name : String}
    (occurs : name ∈ (formula.substitute (bindings.hide bound)).groundNameOccurrences bound) :
    name ∈ formula.groundNameOccurrences (bindings.keys ++ bound) ∨ name ∈ bindings.targets := by
  induction formula generalizing bound with
  | truth => exact .inl occurs
  | falsity => exact .inl occurs
  | atom predicate arguments => exact mem_freeNames_substitute ground occurs
  | equal left right =>
      exact @mem_freeNames_substitute bindings bound ground [left, right] name occurs
  | not operand induction => exact induction occurs
  | and parts induction =>
      rw [substitute, groundNameOccurrences, substituteParts_eq_map,
        partsGroundNameOccurrences_eq_flatMap, List.flatMap_map, List.mem_flatMap] at occurs
      obtain ⟨part, member, inside⟩ := occurs
      rw [groundNameOccurrences, partsGroundNameOccurrences_eq_flatMap, List.mem_flatMap]
      exact (induction part member inside).imp_left fun inPart => ⟨part, member, inPart⟩
  | or parts induction =>
      rw [substitute, groundNameOccurrences, substituteParts_eq_map,
        partsGroundNameOccurrences_eq_flatMap, List.flatMap_map, List.mem_flatMap] at occurs
      obtain ⟨part, member, inside⟩ := occurs
      rw [groundNameOccurrences, partsGroundNameOccurrences_eq_flatMap, List.mem_flatMap]
      exact (induction part member inside).imp_left fun inPart => ⟨part, member, inPart⟩
  | implies premise consequent premiseInduction consequentInduction =>
      rw [groundNameOccurrences, List.mem_append]
      rcases List.mem_append.mp occurs with inPremise | inConsequent
      · exact (premiseInduction inPremise).imp_left .inl
      · exact (consequentInduction inConsequent).imp_left .inr
  | forAll binders body induction =>
      rw [substitute, groundNameOccurrences, Bindings.hide_hide] at occurs
      rw [groundNameOccurrences, List.append_assoc]
      exact induction occurs
  | forSome binders body induction =>
      rw [substitute, groundNameOccurrences, Bindings.hide_hide] at occurs
      rw [groundNameOccurrences, List.append_assoc]
      exact induction occurs

theorem Term.replacesFree_iff {term other : Term} :
    Term.ReplacesFree bindings bound term other ↔
      other = term.substitute (bindings.hide bound) := by
  cases term with
  | constant name =>
      constructor
      · rintro ⟨⟩
        rfl
      · rintro rfl
        exact .constant name
  | var name =>
      rw [Term.substitute, Bindings.lookup_hide]
      constructor
      · intro replaces
        cases replaces with
        | shadowed isBound => rw [if_pos isBound, Option.getD_none]
        | kept unbound =>
            rw [Bindings.lookup_eq_none_iff_not_mem_keys.mpr unbound, ite_self, Option.getD_none]
        | replaced isFree found => rw [if_neg isFree, found, Option.getD_some]
      · rintro rfl
        by_cases isBound : name ∈ bound
        · rw [if_pos isBound]
          exact .shadowed isBound
        · rw [if_neg isBound]
          cases found : bindings.lookup name with
          | none => exact .kept (Bindings.lookup_eq_none_iff_not_mem_keys.mp found)
          | some term => exact .replaced isBound found

theorem Formula.replacesFree_iff {formula other : Formula} :
    Formula.ReplacesFree bindings bound formula other ↔
      other = formula.substitute (bindings.hide bound) := by
  have partsIff {parts : List Formula} {bound : List String}
      (each : ∀ part ∈ parts, ∀ other, Formula.ReplacesFree bindings bound part other ↔
        other = part.substitute (bindings.hide bound)) (others : List Formula) :
      (parts.length = others.length ∧ ∀ {part other}, (part, other) ∈ parts.zip others →
        Formula.ReplacesFree bindings bound part other) ↔
      others = parts.map (substitute (bindings.hide bound)) :=
    List.forall₂_iff_zip.symm.trans (forall₂_iff_eq_map each)
  induction formula generalizing bound other with
  | truth => exact ⟨by rintro ⟨⟩; rfl, by rintro rfl; exact .truth⟩
  | falsity => exact ⟨by rintro ⟨⟩; rfl, by rintro rfl; exact .falsity⟩
  | atom predicate arguments =>
      have each {others : List Term} :
          List.Forall₂ (Term.ReplacesFree bindings bound) arguments others ↔
            others = arguments.map (Term.substitute (bindings.hide bound)) :=
        forall₂_iff_eq_map fun _ _ _ => Term.replacesFree_iff
      constructor
      · intro replaces
        cases replaces with
        | atom _ replaces => rw [substitute, each.mp replaces]
      · rintro rfl
        exact .atom predicate (each.mpr rfl)
  | equal left right =>
      constructor
      · intro replaces
        cases replaces with
        | equal leftReplaces rightReplaces =>
            rw [substitute, Term.replacesFree_iff.mp leftReplaces,
              Term.replacesFree_iff.mp rightReplaces]
      · rintro rfl
        exact .equal (Term.replacesFree_iff.mpr rfl) (Term.replacesFree_iff.mpr rfl)
  | not operand induction =>
      constructor
      · intro replaces
        cases replaces with
        | not replaces => rw [substitute, induction.mp replaces]
      · rintro rfl
        exact .not (induction.mpr rfl)
  | and parts induction =>
      have each := partsIff fun part member other => @induction part member bound other
      rw [substitute, substituteParts_eq_map]
      constructor
      · intro replaces
        cases replaces with
        | and lengths replaces => rw [(each _).mp ⟨lengths, replaces⟩]
      · rintro rfl
        obtain ⟨lengths, replaces⟩ := (each _).mpr rfl
        exact .and lengths replaces
  | or parts induction =>
      have each := partsIff fun part member other => @induction part member bound other
      rw [substitute, substituteParts_eq_map]
      constructor
      · intro replaces
        cases replaces with
        | or lengths replaces => rw [(each _).mp ⟨lengths, replaces⟩]
      · rintro rfl
        obtain ⟨lengths, replaces⟩ := (each _).mpr rfl
        exact .or lengths replaces
  | implies premise consequent premiseInduction consequentInduction =>
      constructor
      · intro replaces
        cases replaces with
        | implies premiseReplaces consequentReplaces =>
            rw [substitute, premiseInduction.mp premiseReplaces,
              consequentInduction.mp consequentReplaces]
      · rintro rfl
        exact .implies (premiseInduction.mpr rfl) (consequentInduction.mpr rfl)
  | forAll binders body induction =>
      rw [substitute, Bindings.hide_hide]
      constructor
      · intro replaces
        cases replaces with
        | forAll _ replaces => rw [induction.mp replaces]
      · rintro rfl
        exact .forAll binders (induction.mpr rfl)
  | forSome binders body induction =>
      rw [substitute, Bindings.hide_hide]
      constructor
      · intro replaces
        cases replaces with
        | forSome _ replaces => rw [induction.mp replaces]
      · rintro rfl
        exact .forSome binders (induction.mpr rfl)

end Replacement

end Ergo
