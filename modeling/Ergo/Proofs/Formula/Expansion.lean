import Ergo.Proofs.Formula.Skolem

/-!
Expansion of universal quantifiers. Main statements: if the names of each domain stand for members of
its sort, a normal formula implies its expansion (`holds_expansion`), and if each member of a sort
over which the formula quantifies has a name in the domain, the expansion implies the formula
(`holds_of_expansion`).
-/

namespace Ergo

universe u

/-! ## Choices -/

theorem mem_choices {ranges : List (List String)} {names : List String} :
    names ∈ choices ranges ↔ List.Forall₂ (fun name range => name ∈ range) names ranges := by
  induction ranges generalizing names with
  | nil => simp [choices]
  | cons range ranges induction =>
      simp only [choices, List.mem_flatMap, List.mem_map, List.forall₂_cons_right_iff, induction]
      constructor
      · rintro ⟨name, inRange, later, chosen, rfl⟩
        exact ⟨name, later, inRange, chosen, rfl⟩
      · rintro ⟨name, later, inRange, chosen, rfl⟩
        exact ⟨name, inRange, later, chosen, rfl⟩

/-! ## What an expansion consists of -/

namespace Formula

variable {domains : Domains} {sortOf : String → String} {bindings : Bindings}

/-- The formula has this expansion, within some budget. -/
def Expands (domains : Domains) (sortOf : String → String) (bindings : Bindings)
    (formula expansion : Formula) : Prop :=
  ∃ budget rest, formula.expandWith domains sortOf bindings budget = some (expansion, rest)

theorem expands_of_expand {formula expansion : Formula} {limit : Nat}
    (expanded : formula.expand domains sortOf limit = some expansion) :
    formula.Expands domains sortOf [] expansion := by
  obtain ⟨⟨form, rest⟩, found, rfl⟩ := Option.map_eq_some_iff.mp expanded
  exact ⟨limit, rest, found⟩

theorem expandParts_forall₂ {parts expansions : List Formula} {budget left : Nat}
    (expanded : expandParts domains sortOf bindings parts budget = some (expansions, left)) :
    List.Forall₂ (Expands domains sortOf bindings) parts expansions := by
  induction parts generalizing expansions budget with
  | nil =>
      simp only [expandParts, Option.some.injEq, Prod.mk.injEq] at expanded
      rw [← expanded.1]
      exact .nil
  | cons part parts induction =>
      simp only [expandParts, Option.pure_def, Option.bind_eq_bind, Option.bind_eq_some_iff,
        Option.some.injEq, Prod.exists, Prod.mk.injEq] at expanded
      obtain ⟨first, rest, firstExpanded, others, _, othersExpanded, rfl, rfl⟩ := expanded
      exact .cons ⟨budget, rest, firstExpanded⟩ (induction othersExpanded)

theorem expandInstances_forall₂ {expand : Bindings → Nat → Option (Formula × Nat)}
    {instances : List Bindings} {expansions : List Formula} {budget left : Nat}
    (expanded : expandInstances expand instances budget = some (expansions, left)) :
    List.Forall₂ (fun bindings expansion =>
        ∃ budget rest, expand bindings budget = some (expansion, rest))
      instances expansions := by
  induction instances generalizing expansions budget with
  | nil =>
      simp only [expandInstances, Option.some.injEq, Prod.mk.injEq] at expanded
      rw [← expanded.1]
      exact .nil
  | cons bindings instances induction =>
      simp only [expandInstances, Option.pure_def, Option.bind_eq_bind, Option.bind_eq_some_iff,
        Option.some.injEq, Prod.exists, Prod.mk.injEq] at expanded
      obtain ⟨first, rest, firstExpanded, others, _, othersExpanded, rfl, rfl⟩ := expanded
      exact .cons ⟨budget, rest, firstExpanded⟩ (induction othersExpanded)

def instanceNames (domains : Domains) (sortOf : String → String) (binders : List String) :
    List (List String) :=
  choices (binders.map fun name => domains.domain (sortOf name))

theorem mem_instanceNames {binders names : List String} :
    names ∈ instanceNames domains sortOf binders ↔
      List.Forall₂ (fun name binder => name ∈ domains.domain (sortOf binder)) names binders := by
  rw [instanceNames, mem_choices, List.forall₂_map_right_iff]

theorem Expands.and_inv {parts : List Formula} {expansion : Formula}
    (expands : Expands domains sortOf bindings (.and parts) expansion) :
    ∃ expansions, expansion = .and expansions ∧
      List.Forall₂ (Expands domains sortOf bindings) parts expansions := by
  obtain ⟨budget, rest, expanded⟩ := expands
  simp only [expandWith, Option.pure_def, Option.bind_eq_bind, Option.bind_eq_some_iff,
    Option.some.injEq, Prod.exists, Prod.mk.injEq] at expanded
  obtain ⟨expansions, left, partsExpanded, rfl, -⟩ := expanded
  exact ⟨expansions, rfl, expandParts_forall₂ partsExpanded⟩

theorem Expands.or_inv {parts : List Formula} {expansion : Formula}
    (expands : Expands domains sortOf bindings (.or parts) expansion) :
    ∃ expansions, expansion = .or expansions ∧
      List.Forall₂ (Expands domains sortOf bindings) parts expansions := by
  obtain ⟨budget, rest, expanded⟩ := expands
  simp only [expandWith, Option.pure_def, Option.bind_eq_bind, Option.bind_eq_some_iff,
    Option.some.injEq, Prod.exists, Prod.mk.injEq] at expanded
  obtain ⟨expansions, left, partsExpanded, rfl, -⟩ := expanded
  exact ⟨expansions, rfl, expandParts_forall₂ partsExpanded⟩

theorem Expands.forAll_inv {binders : List String} {body expansion : Formula}
    (expands : Expands domains sortOf bindings (.forAll binders body) expansion) :
    ∃ expansions, expansion = .and expansions ∧
      List.Forall₂
        (fun names => Expands domains sortOf (choiceBindings binders names ++ bindings) body)
        (instanceNames domains sortOf binders) expansions := by
  obtain ⟨budget, rest, expanded⟩ := expands
  simp only [expandWith, Option.pure_def, Option.bind_eq_bind, Option.bind_eq_some_iff] at expanded
  obtain ⟨count, -, expanded⟩ := expanded
  split at expanded
  · exact absurd expanded (by simp)
  · simp only [Option.bind_eq_some_iff, Option.some.injEq, Prod.exists, Prod.mk.injEq] at expanded
    obtain ⟨expansions, left, instancesExpanded, rfl, -⟩ := expanded
    refine ⟨expansions, rfl, ?_⟩
    have each := expandInstances_forall₂ instancesExpanded
    rw [List.forall₂_map_left_iff] at each
    exact each

theorem not_expands_forSome {binders : List String} {body expansion : Formula} :
    ¬ Expands domains sortOf bindings (.forSome binders body) expansion := by
  rintro ⟨budget, rest, expanded⟩
  simp [expandWith] at expanded

theorem IsLiteral.eq_substitute {formula expansion : Formula} (literal : formula.IsLiteral)
    (expands : Expands domains sortOf bindings formula expansion) :
    expansion = formula.substitute bindings := by
  obtain ⟨budget, rest, expanded⟩ := expands
  have plain : formula.expandWith domains sortOf bindings budget =
      some (formula.substitute bindings, budget) := by
    cases literal <;> rfl
  rw [plain, Option.some.injEq, Prod.mk.injEq] at expanded
  exact expanded.1.symm

end Formula

/-! ## Truth -/

namespace Structure

variable {model : Structure.{u}} {range : model.Range} {reading : model.Reading}
  {domains : Domains} {sortOf : String → String} {bindings : Bindings}

theorem holds_expansion {formula expansion : Formula} (normal : formula.IsNormal)
    (expands : Formula.Expands domains sortOf bindings formula expansion)
    (ground : bindings.Ground)
    (named : ∀ binder, ∀ name ∈ domains.domain (sortOf binder), range binder (reading name))
    (holds : Holds range reading (bindings.values reading) formula) :
    Holds range reading Assignment.unbound expansion := by
  induction normal generalizing bindings expansion with
  | literal literal =>
      rw [literal.eq_substitute expands]
      exact (holds_substitute_of_ground ground reading _).mpr holds
  | and _ induction =>
      obtain ⟨expansions, rfl, each⟩ := expands.and_inv
      exact allHold_of_forall₂ (forall₂_imp_of_mem each fun part member _ expands =>
        induction part member expands ground) holds
  | or _ induction =>
      obtain ⟨expansions, rfl, each⟩ := expands.or_inv
      exact anyHolds_of_forall₂ (forall₂_imp_of_mem each fun part member _ expands =>
        induction part member expands ground) holds
  | forAll binders _ induction =>
      obtain ⟨expansions, rfl, each⟩ := expands.forAll_inv
      rw [Holds, allHold_iff]
      intro instanceForm member
      obtain ⟨names, chosen, instanceExpands⟩ := exists_mem_left_of_forall₂ each member
      refine induction instanceExpands ((Bindings.Ground.choiceBindings _ _).append ground) ?_
      rw [Bindings.values_choiceBindings_append]
      refine holds (names.map reading) ?_
      rw [List.forall₂_map_right_iff]
      exact (Formula.mem_instanceNames.mp chosen).flip.imp fun binder name => named binder name
  | forSome binders _ _ => exact absurd expands Formula.not_expands_forSome

theorem exists_names {binders : List String} {elements : List model.Element}
    (covered : ∀ binder ∈ binders, ∀ element, range binder element →
      ∃ name ∈ domains.domain (sortOf binder), reading name = element)
    (ranges : List.Forall₂ range binders elements) :
    ∃ names ∈ Formula.instanceNames domains sortOf binders, names.map reading = elements := by
  simp only [Formula.mem_instanceNames]
  induction ranges with
  | nil => exact ⟨[], .nil, rfl⟩
  | @cons binder element binders elements inRange _ induction =>
      obtain ⟨name, inDomain, rfl⟩ := covered binder (by simp) element inRange
      obtain ⟨names, chosen, rfl⟩ :=
        induction fun later member => covered later (List.mem_cons_of_mem binder member)
      exact ⟨name :: names, .cons inDomain chosen, rfl⟩

theorem holds_of_expansion {formula expansion : Formula} (normal : formula.IsNormal)
    (expands : Formula.Expands domains sortOf bindings formula expansion)
    (ground : bindings.Ground)
    (covered : ∀ binder ∈ formula.universalOccurrences, ∀ element, range binder element →
      ∃ name ∈ domains.domain (sortOf binder), reading name = element)
    (holds : Holds range reading Assignment.unbound expansion) :
    Holds range reading (bindings.values reading) formula := by
  induction normal generalizing bindings expansion with
  | literal literal =>
      rw [literal.eq_substitute expands] at holds
      exact (holds_substitute_of_ground ground reading _).mp holds
  | and _ induction =>
      obtain ⟨expansions, rfl, each⟩ := expands.and_inv
      refine allHold_of_forall₂ (forall₂_imp_of_mem each fun part member _ expands =>
        induction part member expands ground fun binder occurs => covered binder ?_).flip holds
      simpa [Formula.universalOccurrences] using ⟨part, member, occurs⟩
  | or _ induction =>
      obtain ⟨expansions, rfl, each⟩ := expands.or_inv
      refine anyHolds_of_forall₂ (forall₂_imp_of_mem each fun part member _ expands =>
        induction part member expands ground fun binder occurs => covered binder ?_).flip holds
      simpa [Formula.universalOccurrences] using ⟨part, member, occurs⟩
  | forAll binders _ induction =>
      obtain ⟨expansions, rfl, each⟩ := expands.forAll_inv
      rw [Holds, allHold_iff] at holds
      intro elements ranges
      obtain ⟨names, chosen, rfl⟩ := exists_names (fun binder member =>
        covered binder (List.mem_append_left _ member)) ranges
      obtain ⟨instanceForm, member, instanceExpands⟩ := exists_mem_right_of_forall₂ each chosen
      rw [← Bindings.values_choiceBindings_append]
      exact induction instanceExpands ((Bindings.Ground.choiceBindings _ _).append ground)
        (fun binder occurs => covered binder (List.mem_append_right _ occurs))
        (holds instanceForm member)
  | forSome binders _ _ => exact absurd expands Formula.not_expands_forSome

end Structure

/-! ## Quantifier-free formulas -/

namespace Formula

/-- A normal formula without quantifiers. -/
inductive IsGround : Formula → Prop
  | literal {formula : Formula} : IsLiteral formula → IsGround formula
  | and {parts : List Formula} : (∀ part ∈ parts, IsGround part) → IsGround (.and parts)
  | or {parts : List Formula} : (∀ part ∈ parts, IsGround part) → IsGround (.or parts)

theorem Expands.isGround {domains : Domains} {sortOf : String → String} {bindings : Bindings}
    {formula expansion : Formula} (normal : formula.IsNormal)
    (expands : Expands domains sortOf bindings formula expansion) : expansion.IsGround := by
  induction normal generalizing bindings expansion with
  | literal literal =>
      rw [literal.eq_substitute expands]
      exact .literal (literal.substitute bindings)
  | and _ induction =>
      obtain ⟨expansions, rfl, each⟩ := expands.and_inv
      refine .and fun form member => ?_
      obtain ⟨part, inside, partExpands⟩ := exists_mem_left_of_forall₂ each member
      exact induction part inside partExpands
  | or _ induction =>
      obtain ⟨expansions, rfl, each⟩ := expands.or_inv
      refine .or fun form member => ?_
      obtain ⟨part, inside, partExpands⟩ := exists_mem_left_of_forall₂ each member
      exact induction part inside partExpands
  | forAll binders _ induction =>
      obtain ⟨expansions, rfl, each⟩ := expands.forAll_inv
      refine .and fun form member => ?_
      obtain ⟨names, _, instanceExpands⟩ := exists_mem_left_of_forall₂ each member
      exact induction instanceExpands
  | forSome binders _ _ => exact absurd expands not_expands_forSome

end Formula

end Ergo
