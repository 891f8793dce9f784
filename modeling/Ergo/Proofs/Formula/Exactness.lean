import Ergo.Proofs.Formula.Instances
import Ergo.Proofs.Refutation.Domains

/-!
What expansion gives, and when. Main statement: `expandsExactly`. The expansion has the form of the
formula with each universal quantifier replaced by the conjunction of its instances, and says what the
formula says of the names in the domains. It exists if the limit is enough for all instances and no
existential quantifier is reached, but for formulas in which the number of tuples passes a word on the
way to zero.
-/

namespace Ergo

universe u

namespace Formula

variable {domains : Domains} {sortOf : String → String} {bindings : Bindings}

/-! ## The form of an expansion -/

/-- The second formula has the form of the first one, with each universal quantifier replaced by the
conjunction of its instances: one for each tuple of names of the domains, in lexicographic order. -/
inductive IsExpansion (domains : Domains) (sortOf : String → String) : Formula → Formula → Prop
  | truth : IsExpansion domains sortOf .truth .truth
  | falsity : IsExpansion domains sortOf .falsity .falsity
  | atom (predicate : String) (arguments : List Term) :
      IsExpansion domains sortOf (.atom predicate arguments) (.atom predicate arguments)
  | equal (left right : Term) : IsExpansion domains sortOf (.equal left right) (.equal left right)
  | not {operand expansion : Formula} : IsExpansion domains sortOf operand expansion →
      IsExpansion domains sortOf (.not operand) (.not expansion)
  | and {parts expansions : List Formula} :
      List.Forall₂ (IsExpansion domains sortOf) parts expansions →
        IsExpansion domains sortOf (.and parts) (.and expansions)
  | or {parts expansions : List Formula} :
      List.Forall₂ (IsExpansion domains sortOf) parts expansions →
        IsExpansion domains sortOf (.or parts) (.or expansions)
  | implies {premise consequent first second : Formula} :
      IsExpansion domains sortOf premise first → IsExpansion domains sortOf consequent second →
        IsExpansion domains sortOf (.implies premise consequent) (.implies first second)
  | forAll {binders : List String} {body : Formula} {tuples : List (List String)}
      {expansions : List Formula} :
      ListsTuples (rangesOf domains sortOf binders) tuples →
        List.Forall₂ (IsExpansion domains sortOf)
          (tuples.map fun names => body.substitute (choiceBindings binders names)) expansions →
        IsExpansion domains sortOf (.forAll binders body) (.and expansions)

theorem nodup_rangesOf (distinct : domains.members.Nodup) (binders : List String) :
    ∀ range ∈ rangesOf domains sortOf binders, range.Nodup := by
  intro range member
  obtain ⟨binder, -, rfl⟩ := List.mem_map.mp member
  exact Domains.nodup_domain distinct _

theorem length_eq_of_mem_choices {binders names : List String}
    (chosen : names ∈ choices (rangesOf domains sortOf binders)) : binders.length = names.length := by
  have lengths := (mem_choices.mp chosen).length_eq
  rw [rangesOf, List.length_map] at lengths
  exact lengths.symm

theorem isExpansion_instances (distinct : domains.members.Nodup) {formula : Formula}
    (unblocked : formula.IsUnblocked domains sortOf) (ground : bindings.Ground) :
    IsExpansion domains sortOf (formula.substitute bindings)
      (formula.instances domains sortOf bindings) := by
  induction formula generalizing bindings with
  | truth => exact .truth
  | falsity => exact .falsity
  | atom predicate arguments => exact .atom predicate _
  | equal left right => exact .equal _ _
  | not operand induction => exact .not (induction unblocked.operand ground)
  | and parts induction =>
      rw [substitute, substituteParts_eq_map, instances, partsInstances_eq_map]
      refine .and ?_
      rw [List.forall₂_map_left_iff, List.forall₂_map_right_iff, List.forall₂_same]
      exact fun part member => induction part member (unblocked.conjunct member) ground
  | or parts induction =>
      rw [substitute, substituteParts_eq_map, instances, partsInstances_eq_map]
      refine .or ?_
      rw [List.forall₂_map_left_iff, List.forall₂_map_right_iff, List.forall₂_same]
      exact fun part member => induction part member (unblocked.disjunct member) ground
  | implies premise consequent premiseInduction consequentInduction =>
      exact .implies (premiseInduction unblocked.premise ground)
        (consequentInduction unblocked.consequent ground)
  | forAll binders body induction =>
      refine .forAll (listsTuples_choices (nodup_rangesOf distinct binders)) ?_
      rw [List.forall₂_map_left_iff, List.forall₂_map_right_iff, List.forall₂_same]
      intro names chosen
      rw [substitute_hide_choiceBindings ground (length_eq_of_mem_choices chosen)]
      exact induction (unblocked.body chosen)
        ((Bindings.Ground.choiceBindings binders names).append ground)
  | forSome binders body _ => exact absurd unblocked IsUnblocked.not_forSome

inductive IsQuantifierFree : Formula → Prop
  | truth : IsQuantifierFree .truth
  | falsity : IsQuantifierFree .falsity
  | atom (predicate : String) (arguments : List Term) : IsQuantifierFree (.atom predicate arguments)
  | equal (left right : Term) : IsQuantifierFree (.equal left right)
  | not {operand : Formula} : IsQuantifierFree operand → IsQuantifierFree (.not operand)
  | and {parts : List Formula} : (∀ part ∈ parts, IsQuantifierFree part) →
      IsQuantifierFree (.and parts)
  | or {parts : List Formula} : (∀ part ∈ parts, IsQuantifierFree part) →
      IsQuantifierFree (.or parts)
  | implies {premise consequent : Formula} : IsQuantifierFree premise →
      IsQuantifierFree consequent → IsQuantifierFree (.implies premise consequent)

theorem isQuantifierFree_instances {formula : Formula}
    (unblocked : formula.IsUnblocked domains sortOf) (bindings : Bindings) :
    (formula.instances domains sortOf bindings).IsQuantifierFree := by
  induction formula generalizing bindings with
  | truth => exact .truth
  | falsity => exact .falsity
  | atom predicate arguments => exact .atom predicate _
  | equal left right => exact .equal _ _
  | not operand induction => exact .not (induction unblocked.operand bindings)
  | and parts induction =>
      rw [instances, partsInstances_eq_map]
      refine .and (List.forall_mem_map.mpr fun part member => ?_)
      exact induction part member (unblocked.conjunct member) bindings
  | or parts induction =>
      rw [instances, partsInstances_eq_map]
      refine .or (List.forall_mem_map.mpr fun part member => ?_)
      exact induction part member (unblocked.disjunct member) bindings
  | implies premise consequent premiseInduction consequentInduction =>
      exact .implies (premiseInduction unblocked.premise bindings)
        (consequentInduction unblocked.consequent bindings)
  | forAll binders body induction =>
      refine .and (List.forall_mem_map.mpr fun names chosen => ?_)
      exact induction (unblocked.body chosen) _
  | forSome binders body _ => exact absurd unblocked IsUnblocked.not_forSome

end Formula

/-! ## The truth of an expansion -/

namespace Structure

variable {model : Structure.{u}} {range : model.Range} {reading : model.Reading}
  {assignment : model.Assignment} {domains : Domains} {sortOf : String → String} {bindings : Bindings}

/-- Variables range over what the names in their domains stand for. -/
def named (domains : Domains) (sortOf : String → String) (reading : model.Reading) : model.Range :=
  fun binder element => ∃ name ∈ domains.domain (sortOf binder), reading name = element

theorem holds_instances {formula : Formula} (unblocked : formula.IsUnblocked domains sortOf)
    (ground : bindings.Ground) :
    Holds range reading assignment (formula.instances domains sortOf bindings) ↔
      Holds (named domains sortOf reading) reading (assignment.under bindings reading) formula := by
  induction formula generalizing bindings with
  | truth => rfl
  | falsity => rfl
  | atom predicate arguments => exact holds_substitute ground (.atom predicate arguments)
  | equal left right => exact holds_substitute ground (.equal left right)
  | not operand induction => exact not_congr (induction unblocked.operand ground)
  | and parts induction =>
      simp only [Formula.instances, Formula.partsInstances_eq_map, Holds, allHold_iff,
        List.forall_mem_map]
      exact forall₂_congr fun part member => induction part member (unblocked.conjunct member) ground
  | or parts induction =>
      simp only [Formula.instances, Formula.partsInstances_eq_map, Holds, anyHolds_iff,
        List.mem_map, exists_exists_and_eq_and]
      exact exists_congr fun part => and_congr_right fun member =>
        induction part member (unblocked.disjunct member) ground
  | implies premise consequent premiseInduction consequentInduction =>
      exact imp_congr (premiseInduction unblocked.premise ground)
        (consequentInduction unblocked.consequent ground)
  | forAll binders body induction =>
      have each {names : List String}
          (chosen : names ∈ choices (Formula.rangesOf domains sortOf binders)) :
          Holds range reading assignment
              (body.instances domains sortOf (choiceBindings binders names ++ bindings)) ↔
            Holds (named domains sortOf reading) reading
              ((assignment.under bindings reading).bind binders (names.map reading)) body := by
        rw [← Assignment.under_choiceBindings]
        exact induction (unblocked.body chosen)
          ((Bindings.Ground.choiceBindings binders names).append ground)
      simp only [Formula.instances, Holds, allHold_iff, List.forall_mem_map]
      constructor
      · intro holds elements ranges
        obtain ⟨names, chosen, rfl⟩ := exists_names (fun _ _ _ inRange => inRange) ranges
        exact (each chosen).mp (holds names chosen)
      · intro holds names chosen
        refine (each chosen).mpr (holds _ ?_)
        rw [List.forall₂_map_right_iff]
        exact (Formula.mem_instanceNames.mp chosen).flip.imp fun _ name inDomain =>
          ⟨name, inDomain, rfl⟩
  | forSome binders body _ => exact absurd unblocked Formula.IsUnblocked.not_forSome

end Structure

namespace Formula

/-! ## Exactness -/

/-- What holds of the expansion of a formula over domains with a limit. -/
structure ExpandsExactly (domains : Domains) (sortOf : String → String) (limit : Nat)
    (formula : Formula) : Prop where
  isSome_iff : (formula.expand domains sortOf limit).isSome ↔
    (¬ formula.MeetsForSome domains sortOf ∧ formula.instanceCount domains sortOf ≤ limit) ∧
      ¬ formula.MeetsLostCount domains sortOf
  form : ∀ {expansion}, formula.expand domains sortOf limit = some expansion →
    IsExpansion domains sortOf formula expansion
  quantifierFree : ∀ {expansion}, formula.expand domains sortOf limit = some expansion →
    expansion.IsQuantifierFree
  limitless : ∀ {expansion other found}, formula.expand domains sortOf limit = some expansion →
    formula.expand domains sortOf other = some found → found = expansion
  truth : ∀ {expansion}, formula.expand domains sortOf limit = some expansion →
    ∀ (model : Structure.{u}) (range : model.Range) (reading : model.Reading)
      (assignment : model.Assignment),
      Structure.Holds range reading assignment expansion ↔
        Structure.Holds (Structure.named domains sortOf reading) reading assignment formula

theorem isSome_expand_iff {domains : Domains} {sortOf : String → String} {formula : Formula}
    {limit : Nat} (word : limit < countLimit) :
    (formula.expand domains sortOf limit).isSome ↔
      (¬ formula.MeetsForSome domains sortOf ∧ formula.instanceCount domains sortOf ≤ limit) ∧
        ¬ formula.MeetsLostCount domains sortOf := by
  simp only [Option.isSome_iff_exists, expand_eq_some_iff, exists_and_left, exists_eq', and_true]
  constructor
  · rintro ⟨unblocked, enough⟩
    obtain ⟨noForSome, noLostCount⟩ := (isUnblocked_iff (Nat.lt_of_le_of_lt enough word)).mp unblocked
    exact ⟨⟨noForSome, enough⟩, noLostCount⟩
  · rintro ⟨⟨noForSome, enough⟩, noLostCount⟩
    exact ⟨(isUnblocked_iff (Nat.lt_of_le_of_lt enough word)).mpr ⟨noForSome, noLostCount⟩, enough⟩

theorem expandsExactly (members : List (String × String)) (sortOf : String → String) {limit : Nat}
    (word : limit < countLimit) (formula : Formula) :
    ExpandsExactly.{u} (Domains.empty.addAll members) sortOf limit formula where
  isSome_iff := isSome_expand_iff word
  form expanded := by
    obtain ⟨unblocked, -, rfl⟩ := expand_eq_some_iff.mp expanded
    have form := isExpansion_instances (Domains.nodup_addAll List.nodup_nil members) unblocked .nil
    rwa [substitute_nil] at form
  quantifierFree expanded := by
    obtain ⟨unblocked, -, rfl⟩ := expand_eq_some_iff.mp expanded
    exact isQuantifierFree_instances unblocked []
  limitless expanded found := by
    obtain ⟨-, -, rfl⟩ := expand_eq_some_iff.mp expanded
    exact (expand_eq_some_iff.mp found).2.2.symm
  truth expanded model range reading assignment := by
    obtain ⟨unblocked, -, rfl⟩ := expand_eq_some_iff.mp expanded
    exact Structure.holds_instances unblocked .nil

theorem shadowing_expandsExactly : 10 < countLimit ∧
    ExpandsExactly.{0} (Domains.empty.addAll [("Object", "a"), ("Object", "b")])
      (fun _ => "Object") 10 (.forAll ["x"] (.or [.atom "P" [.var "x"],
        .forAll ["y", "x"] (.not (.atom "R" [.var "x", .var "y"]))])) :=
  ⟨by decide, expandsExactly _ _ (by decide) _⟩

/-! ## A count that is lost -/

def manyBinders : List String :=
  ["a", "b", "c", "d", "e", "f", "g", "h", "i", "j", "k", "l", "m", "n", "o", "p"]

/-- Sixteen variables over sixteen names each, and one over no name. -/
def lostCount : Formula :=
  .forAll (manyBinders ++ ["z"]) (.atom "P" [.var "z"])

def manyMembers : List (String × String) :=
  manyBinders.map fun name => ("Object", name.toUpper)

def objectOrEmpty (name : String) : String :=
  if name = "z" then "Empty" else "Object"

theorem not_meetsForSome_forAll_atom {domains : Domains} {sortOf : String → String}
    (binders : List String) (predicate : String) (arguments : List Term) :
    ¬ (forAll binders (.atom predicate arguments)).MeetsForSome domains sortOf := by
  rintro ⟨found, body, reached⟩
  cases reached with
  | forAll _ reached => cases reached

/-- The formula has no instances at all, and yet no expansion. -/
theorem not_isSome_expand_lostCount :
    ¬ ((lostCount.expand (Domains.empty.addAll manyMembers) objectOrEmpty 1000).isSome ↔
      ¬ lostCount.MeetsForSome (Domains.empty.addAll manyMembers) objectOrEmpty ∧
        lostCount.instanceCount (Domains.empty.addAll manyMembers) objectOrEmpty ≤ 1000) := by
  have refused :
      (lostCount.expand (Domains.empty.addAll manyMembers) objectOrEmpty 1000).isSome = false := by
    decide +kernel
  have noInstances :
      lostCount.instanceCount (Domains.empty.addAll manyMembers) objectOrEmpty = 0 := by
    decide +kernel
  rw [refused, noInstances]
  intro same
  exact Bool.false_ne_true (same.mpr ⟨not_meetsForSome_forAll_atom _ _ _, Nat.zero_le 1000⟩)

end Formula

end Ergo
