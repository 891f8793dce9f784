import Ergo.Proofs.Formula.Tuples

/-!
The instances of a formula. Expansion replaces each universal quantifier that it reaches by the
conjunction of the instances of its body, and takes one from its budget for each of them; it gives up
where it reaches an existential quantifier, where the budget is spent, and where the number of tuples
passes a word on the way to zero. Main statements: a formula has an expansion just if nothing that is
reached blocks it and the limit is enough for all instances (`expand_eq_some_iff`), and what may block
it (`isUnblocked_iff`).
-/

namespace Ergo

universe u

/-! ## Budgets -/

section Budgets

variable {item other whole : Type}

/-- The step gives its result at a fixed cost, if the budget is enough for it. -/
def Spends (step : Nat → Option (item × Nat)) (result : item) (cost : Nat) : Prop :=
  ∀ budget, step budget = if cost ≤ budget then some (result, budget - cost) else none

theorem Spends.pure (result : item) : Spends (fun budget => some (result, budget)) result 0 :=
  fun budget => by simp

/-- What goes on after a step within what the step has left costs what both cost. -/
theorem Spends.bind {step : Nat → Option (item × Nat)} {result : item} {cost : Nat}
    (first : Spends step result cost) (next : item → Nat → Option (other × Nat)) {final : other}
    {laterCost : Nat} (later : Spends (next result) final laterCost) :
    Spends (fun budget => step budget >>= fun found => next found.1 found.2) final
      (cost + laterCost) := by
  intro budget
  dsimp only
  rw [first budget]
  by_cases enough : cost ≤ budget
  · rw [if_pos enough]
    refine (later (budget - cost)).trans ?_
    by_cases both : cost + laterCost ≤ budget
    · rw [if_pos (by omega), if_pos both, Nat.sub_sub]
    · rw [if_neg (by omega), if_neg both]
  · rw [if_neg enough, if_neg (by omega)]
    rfl

theorem Spends.map {step : Nat → Option (item × Nat)} {result : item} {cost : Nat}
    (first : Spends step result cost) (wrap : item → other) :
    Spends (fun budget => step budget >>= fun found => some (wrap found.1, found.2))
      (wrap result) cost :=
  first.bind (fun found left => some (wrap found, left)) (.pure (wrap result))

theorem Spends.join {step : Nat → Option (item × Nat)} {later : Nat → Option (other × Nat)}
    {result : item} {final : other} {cost laterCost : Nat} (first : Spends step result cost)
    (second : Spends later final laterCost) (wrap : item → other → whole) :
    Spends (fun budget => step budget >>= fun found => later found.2 >>= fun next =>
      some (wrap found.1 next.1, next.2)) (wrap result final) (cost + laterCost) :=
  first.bind (fun found left => later left >>= fun next => some (wrap found next.1, next.2))
    (second.map (wrap result))

/-- A step that is taken within what a charge leaves. -/
theorem Spends.charge {step : Nat → Option (item × Nat)} {result : item} {cost : Nat}
    (spends : Spends step result cost) (charge : Nat) :
    Spends (fun budget => if budget < charge then none else step (budget - charge)) result
      (charge + cost) := by
  intro budget
  dsimp only
  by_cases enough : budget < charge
  · rw [if_pos enough, if_neg (by omega)]
  · rw [if_neg enough, spends]
    by_cases both : charge + cost ≤ budget
    · rw [if_pos (by omega), if_pos both, Nat.sub_sub]
    · rw [if_neg (by omega), if_neg both]

end Budgets

namespace Formula

variable {domains : Domains} {sortOf : String → String}

/-! ## What expansion meets -/

/-- The ranges of the variables that a quantifier binds. -/
def rangesOf (domains : Domains) (sortOf : String → String) (binders : List String) :
    List (List String) :=
  binders.map fun name => domains.domain (sortOf name)

/-- The parts of a formula at which expansion arrives: the body of a universal quantifier only if it
has instances. -/
inductive Reaches (domains : Domains) (sortOf : String → String) : Formula → Formula → Prop
  | self (formula : Formula) : Reaches domains sortOf formula formula
  | not {operand part : Formula} : Reaches domains sortOf operand part →
      Reaches domains sortOf (.not operand) part
  | and {parts : List Formula} {member part : Formula} : member ∈ parts →
      Reaches domains sortOf member part → Reaches domains sortOf (.and parts) part
  | or {parts : List Formula} {member part : Formula} : member ∈ parts →
      Reaches domains sortOf member part → Reaches domains sortOf (.or parts) part
  | premise {premise consequent part : Formula} : Reaches domains sortOf premise part →
      Reaches domains sortOf (.implies premise consequent) part
  | consequent {premise consequent part : Formula} : Reaches domains sortOf consequent part →
      Reaches domains sortOf (.implies premise consequent) part
  | forAll {binders : List String} {body part : Formula} :
      sizeProduct (rangesOf domains sortOf binders) ≠ 0 → Reaches domains sortOf body part →
        Reaches domains sortOf (.forAll binders body) part

mutual
/-- The number of instances: for each universal quantifier the tuples over its ranges, and for each of
these the instances of the body. -/
def instanceCount (domains : Domains) (sortOf : String → String) : Formula → Nat
  | .not operand => operand.instanceCount domains sortOf
  | .and parts => partsInstanceCount domains sortOf parts
  | .or parts => partsInstanceCount domains sortOf parts
  | .implies premise consequent =>
      premise.instanceCount domains sortOf + consequent.instanceCount domains sortOf
  | .forAll binders body =>
      sizeProduct (rangesOf domains sortOf binders) +
        sizeProduct (rangesOf domains sortOf binders) * body.instanceCount domains sortOf
  | _ => 0

def partsInstanceCount (domains : Domains) (sortOf : String → String) : List Formula → Nat
  | [] => 0
  | part :: parts => part.instanceCount domains sortOf + partsInstanceCount domains sortOf parts
end

@[simp] theorem partsInstanceCount_eq_sum (parts : List Formula) :
    partsInstanceCount domains sortOf parts = (parts.map (instanceCount domains sortOf)).sum := by
  induction parts with
  | nil => rfl
  | cons part parts induction => simp [partsInstanceCount, induction]

/-- A quantifier at which expansion gives up, whatever its budget. -/
def Blocks (domains : Domains) (sortOf : String → String) : Formula → Prop
  | .forSome _ _ => True
  | .forAll binders _ => Overflows (rangesOf domains sortOf binders)
  | _ => False

/-- Expansion meets no quantifier at which it gives up whatever its budget. -/
def IsUnblocked (domains : Domains) (sortOf : String → String) (formula : Formula) : Prop :=
  ∀ part, formula.Reaches domains sortOf part → ¬ part.Blocks domains sortOf

namespace IsUnblocked

variable {form first second : Formula} {parts : List Formula} {binders names : List String}

theorem operand (unblocked : (Formula.not form).IsUnblocked domains sortOf) :
    form.IsUnblocked domains sortOf :=
  fun part reached => unblocked part (.not reached)

theorem conjunct (unblocked : (Formula.and parts).IsUnblocked domains sortOf)
    (member : form ∈ parts) : form.IsUnblocked domains sortOf :=
  fun part reached => unblocked part (.and member reached)

theorem disjunct (unblocked : (Formula.or parts).IsUnblocked domains sortOf)
    (member : form ∈ parts) : form.IsUnblocked domains sortOf :=
  fun part reached => unblocked part (.or member reached)

theorem premise (unblocked : (Formula.implies first second).IsUnblocked domains sortOf) :
    first.IsUnblocked domains sortOf :=
  fun part reached => unblocked part (.premise reached)

theorem consequent (unblocked : (Formula.implies first second).IsUnblocked domains sortOf) :
    second.IsUnblocked domains sortOf :=
  fun part reached => unblocked part (.consequent reached)

theorem body (unblocked : (Formula.forAll binders form).IsUnblocked domains sortOf)
    (chosen : names ∈ choices (rangesOf domains sortOf binders)) :
    form.IsUnblocked domains sortOf := by
  refine fun part reached => unblocked part (.forAll ?_ reached)
  rw [← length_choices]
  exact Nat.ne_of_gt (List.length_pos_of_mem chosen)

theorem not_overflows (unblocked : (Formula.forAll binders form).IsUnblocked domains sortOf) :
    ¬ Overflows (rangesOf domains sortOf binders) :=
  unblocked _ (.self _)

theorem not_forSome : ¬ (Formula.forSome binders form).IsUnblocked domains sortOf :=
  fun unblocked => unblocked _ (.self _) trivial

end IsUnblocked

mutual
/-- The instances of a formula under bindings. -/
def instances (domains : Domains) (sortOf : String → String) (bindings : Bindings) :
    Formula → Formula
  | .not operand => .not (operand.instances domains sortOf bindings)
  | .and parts => .and (partsInstances domains sortOf bindings parts)
  | .or parts => .or (partsInstances domains sortOf bindings parts)
  | .implies premise consequent =>
      .implies (premise.instances domains sortOf bindings)
        (consequent.instances domains sortOf bindings)
  | .forAll binders body =>
      .and ((choices (rangesOf domains sortOf binders)).map fun names =>
        body.instances domains sortOf (choiceBindings binders names ++ bindings))
  | formula => formula.substitute bindings

def partsInstances (domains : Domains) (sortOf : String → String) (bindings : Bindings) :
    List Formula → List Formula
  | [] => []
  | part :: parts =>
      part.instances domains sortOf bindings :: partsInstances domains sortOf bindings parts
end

@[simp] theorem partsInstances_eq_map (bindings : Bindings) (parts : List Formula) :
    partsInstances domains sortOf bindings parts = parts.map (instances domains sortOf bindings) := by
  induction parts with
  | nil => simp [partsInstances]
  | cons part parts induction => simp [partsInstances, induction]

/-! ## What expansion costs -/

theorem spends_expandParts {bindings : Bindings} {parts : List Formula}
    (each : ∀ part ∈ parts, Spends (part.expandWith domains sortOf bindings)
      (part.instances domains sortOf bindings) (part.instanceCount domains sortOf)) :
    Spends (expandParts domains sortOf bindings parts)
      (parts.map (instances domains sortOf bindings)) (partsInstanceCount domains sortOf parts) := by
  induction parts with
  | nil => exact .pure []
  | cons part parts induction =>
      obtain ⟨own, later⟩ := List.forall_mem_cons.mp each
      rw [partsInstanceCount]
      exact own.join (induction later) List.cons

theorem spends_expandInstances {expand : Bindings → Nat → Option (Formula × Nat)}
    {result : Bindings → Formula} {cost : Nat} {all : List Bindings}
    (each : ∀ bindings ∈ all, Spends (expand bindings) (result bindings) cost) :
    Spends (expandInstances expand all) (all.map result) (all.length * cost) := by
  induction all with
  | nil => exact Nat.zero_mul cost ▸ .pure []
  | cons bindings all induction =>
      obtain ⟨own, later⟩ := List.forall_mem_cons.mp each
      rw [List.length_cons, Nat.succ_mul, Nat.add_comm]
      exact own.join (induction later) List.cons

theorem spends_expandWith {formula : Formula} (unblocked : formula.IsUnblocked domains sortOf)
    (bindings : Bindings) :
    Spends (formula.expandWith domains sortOf bindings)
      (formula.instances domains sortOf bindings) (formula.instanceCount domains sortOf) := by
  -- the cost does not depend on the bindings, so all instances of a body cost the same
  induction formula generalizing bindings with
  | truth => exact .pure _
  | falsity => exact .pure _
  | atom predicate arguments => exact .pure _
  | equal left right => exact .pure _
  | not operand induction => exact (induction unblocked.operand bindings).map Formula.not
  | and parts induction =>
      rw [instances, partsInstances_eq_map]
      exact (spends_expandParts fun part member =>
        induction part member (unblocked.conjunct member) bindings).map Formula.and
  | or parts induction =>
      rw [instances, partsInstances_eq_map]
      exact (spends_expandParts fun part member =>
        induction part member (unblocked.disjunct member) bindings).map Formula.or
  | implies premise consequent premiseInduction consequentInduction =>
      have first := premiseInduction unblocked.premise bindings
      have second := consequentInduction unblocked.consequent bindings
      exact first.join second Formula.implies
  | forAll binders body induction =>
      have counted : countChoices? (binders.map fun name => domains.domain (sortOf name)) =
          some (sizeProduct (rangesOf domains sortOf binders)) :=
        countChoices?_eq_some unblocked.not_overflows
      have each : ∀ chosenBindings ∈ (choices (rangesOf domains sortOf binders)).map fun names =>
            choiceBindings binders names ++ bindings,
          Spends (body.expandWith domains sortOf chosenBindings)
            (body.instances domains sortOf chosenBindings) (body.instanceCount domains sortOf) := by
        intro chosenBindings member
        obtain ⟨names, chosen, rfl⟩ := List.mem_map.mp member
        exact induction (unblocked.body chosen) _
      -- the tuples are paid for at once, before the first of them is expanded
      have bodies := (spends_expandInstances each).map Formula.and
      rw [List.length_map, length_choices, List.map_map] at bodies
      intro budget
      rw [expandWith, instances, instanceCount, counted]
      exact bodies.charge (sizeProduct (rangesOf domains sortOf binders)) budget
  | forSome binders body _ => exact absurd unblocked IsUnblocked.not_forSome

/-! ## Where expansion gives up -/

theorem expandParts_eq_none {bindings : Bindings} {parts : List Formula} {part : Formula}
    (member : part ∈ parts)
    (refused : ∀ budget, part.expandWith domains sortOf bindings budget = none) (budget : Nat) :
    expandParts domains sortOf bindings parts budget = none := by
  induction parts generalizing budget with
  | nil => cases member
  | cons first parts induction =>
      rw [expandParts]
      rcases List.mem_cons.mp member with rfl | later
      · rw [refused]
        rfl
      · refine Option.bind_eq_none_iff.mpr fun found _ => ?_
        dsimp only
        rw [induction later]
        rfl

theorem expandInstances_eq_none {expand : Bindings → Nat → Option (Formula × Nat)}
    (refused : ∀ bindings budget, expand bindings budget = none) {all : List Bindings}
    (someInstance : all ≠ []) (budget : Nat) : expandInstances expand all budget = none := by
  obtain ⟨bindings, all, rfl⟩ := List.exists_cons_of_ne_nil someInstance
  rw [expandInstances, refused]
  rfl

theorem expandWith_eq_none_of_blocks {formula : Formula} (blocks : formula.Blocks domains sortOf)
    (bindings : Bindings) (budget : Nat) :
    formula.expandWith domains sortOf bindings budget = none := by
  cases formula with
  | forSome binders body => rfl
  | forAll binders body =>
      have uncounted : countChoices? (binders.map fun name => domains.domain (sortOf name)) = none :=
        countChoices?_eq_none blocks
      rw [expandWith, uncounted]
      rfl
  | _ => exact absurd blocks id

theorem expandWith_eq_none {formula part : Formula} (reached : formula.Reaches domains sortOf part)
    (blocks : part.Blocks domains sortOf) (bindings : Bindings) (budget : Nat) :
    formula.expandWith domains sortOf bindings budget = none := by
  induction reached generalizing bindings budget with
  | self formula => exact expandWith_eq_none_of_blocks blocks bindings budget
  | not _ induction =>
      rw [expandWith, induction blocks]
      rfl
  | and member _ induction =>
      rw [expandWith, expandParts_eq_none member (induction blocks bindings)]
      rfl
  | or member _ induction =>
      rw [expandWith, expandParts_eq_none member (induction blocks bindings)]
      rfl
  | premise _ induction =>
      rw [expandWith, induction blocks]
      rfl
  | consequent _ induction =>
      rw [expandWith]
      refine Option.bind_eq_none_iff.mpr fun found _ => ?_
      dsimp only
      rw [induction blocks]
      rfl
  | @forAll binders body part nonempty _ induction =>
      have someTuple : choices (rangesOf domains sortOf binders) ≠ [] := by
        rw [← length_choices] at nonempty
        exact List.ne_nil_of_length_pos (Nat.pos_of_ne_zero nonempty)
      rw [expandWith]
      refine Option.bind_eq_none_iff.mpr fun count _ => ?_
      dsimp only
      split
      · rfl
      · rw [expandInstances_eq_none fun bindings budget => induction blocks bindings budget]
        · rfl
        · exact List.map_eq_nil_iff.not.mpr someTuple

/-- A formula has an expansion just if nothing that is reached blocks it and the limit is enough for
all instances. -/
theorem expand_eq_some_iff {formula expansion : Formula} {limit : Nat} :
    formula.expand domains sortOf limit = some expansion ↔
      formula.IsUnblocked domains sortOf ∧ formula.instanceCount domains sortOf ≤ limit ∧
        formula.instances domains sortOf [] = expansion := by
  rw [expand]
  by_cases unblocked : formula.IsUnblocked domains sortOf
  · rw [spends_expandWith unblocked, and_iff_right unblocked]
    by_cases enough : formula.instanceCount domains sortOf ≤ limit
    · simp [enough]
    · simp [enough]
  · simp only [IsUnblocked, not_forall, not_not] at unblocked
    obtain ⟨part, reached, blocks⟩ := unblocked
    rw [expandWith_eq_none reached blocks]
    constructor
    · intro absurdity
      cases absurdity
    · rintro ⟨unblocked, -⟩
      exact absurd blocks (unblocked part reached)

/-! ## Counting in words -/

/-- A part that is reached has no more instances than the whole. -/
theorem Reaches.instanceCount_le {formula part : Formula}
    (reached : formula.Reaches domains sortOf part) :
    part.instanceCount domains sortOf ≤ formula.instanceCount domains sortOf := by
  have ofMember {parts : List Formula} {member : Formula} (listed : member ∈ parts) :
      member.instanceCount domains sortOf ≤ partsInstanceCount domains sortOf parts := by
    rw [partsInstanceCount_eq_sum]
    exact List.single_le_sum (fun _ _ => Nat.zero_le _) _ (List.mem_map_of_mem listed)
  induction reached with
  | self formula => exact Nat.le_refl _
  | not _ induction => exact induction
  | and listed _ induction => exact Nat.le_trans induction (ofMember listed)
  | or listed _ induction => exact Nat.le_trans induction (ofMember listed)
  | premise _ induction =>
      rw [instanceCount]
      omega
  | consequent _ induction =>
      rw [instanceCount]
      omega
  | @forAll binders body part nonempty _ induction =>
      rw [instanceCount]
      have grows : body.instanceCount domains sortOf ≤
          sizeProduct (rangesOf domains sortOf binders) * body.instanceCount domains sortOf :=
        Nat.le_mul_of_pos_left _ (Nat.pos_of_ne_zero nonempty)
      omega

/-- Expansion reaches an existential quantifier. -/
def MeetsForSome (domains : Domains) (sortOf : String → String) (formula : Formula) : Prop :=
  ∃ binders body, formula.Reaches domains sortOf (.forSome binders body)

/-- Expansion reaches a universal quantifier without instances of which the ranges in front of the
empty one have more tuples than a word counts. -/
def MeetsLostCount (domains : Domains) (sortOf : String → String) (formula : Formula) : Prop :=
  ∃ binders body, formula.Reaches domains sortOf (.forAll binders body) ∧
    sizeProduct (rangesOf domains sortOf binders) = 0 ∧ Overflows (rangesOf domains sortOf binders)

/-- As long as there are no more instances than a word counts, only such quantifiers block a
formula. -/
theorem isUnblocked_iff {formula : Formula}
    (small : formula.instanceCount domains sortOf < countLimit) :
    formula.IsUnblocked domains sortOf ↔
      ¬ formula.MeetsForSome domains sortOf ∧ ¬ formula.MeetsLostCount domains sortOf := by
  constructor
  · intro unblocked
    constructor
    · rintro ⟨binders, body, reached⟩
      exact unblocked _ reached trivial
    · rintro ⟨binders, body, reached, -, overflows⟩
      exact unblocked _ reached overflows
  · rintro ⟨noForSome, noLostCount⟩ part reached blocks
    cases part with
    | forSome binders body => exact noForSome ⟨binders, body, reached⟩
    | forAll binders body =>
        by_cases empty : sizeProduct (rangesOf domains sortOf binders) = 0
        · exact noLostCount ⟨binders, body, reached, empty, blocks⟩
        -- a count that passes a word and is not lost is a part of the whole count
        · have passes := Overflows.countLimit_le blocks empty
          have within := reached.instanceCount_le
          rw [instanceCount] at within
          omega
    | _ => exact blocks

end Formula

end Ergo
