import Ergo.Proofs.Ground.Valuation

/-!
What is known while a model is searched for. Facts stand for the congruent valuations that agree with
them; assuming an atom keeps just those valuations that give it the assumed value
(`assume?_spec`). The valuation in which whatever is not known is as expected is one of them
(`Coherent.agrees_value`).
-/

namespace Ergo.Ground.Facts

variable {facts next : Facts} {valuation : Atom → Bool}

/-- The valuation has what is known. -/
structure Agrees (facts : Facts) (valuation : Atom → Bool) : Prop where
  representatives : ∀ name, valuation (.same (facts.representative name) name) = true
  distinct : ∀ pair ∈ facts.distinct, valuation (.same pair.1 pair.2) = false
  truth : ∀ entry ∈ facts.truth, valuation entry.1 = entry.2

/-- Representatives represent themselves, and what is known is known of them, without
contradiction. -/
structure Coherent (facts : Facts) : Prop where
  idempotent : ∀ name,
    facts.representative (facts.representative name) = facts.representative name
  distinct : ∀ pair ∈ facts.distinct, facts.representative pair.1 = pair.1 ∧
    facts.representative pair.2 = pair.2 ∧ pair.1 ≠ pair.2
  truth : ∀ entry ∈ facts.truth, facts.rename entry.1 = entry.1 ∧
    entry.1.isEquality = false ∧ facts.truth.lookup entry.1 = some entry.2

/-- Names with one representative keep having one. -/
def RefinedBy (facts next : Facts) : Prop :=
  ∀ name, next.representative (facts.representative name) = next.representative name

theorem RefinedBy.rename (refined : facts.RefinedBy next) (atom : Atom) :
    next.rename (facts.rename atom) = next.rename atom := by
  unfold RefinedBy at refined
  cases atom with
  | holds predicate arguments =>
      simp only [Facts.rename, renameBy, List.map_map, Function.comp_def, refined]
  | same left right => simp only [Facts.rename, renameBy, refined]

theorem RefinedBy.trans {last : Facts} (first : facts.RefinedBy next)
    (second : next.RefinedBy last) : facts.RefinedBy last := by
  intro name
  rw [← second, first, second]

theorem Coherent.refl (coherent : facts.Coherent) : facts.RefinedBy facts :=
  coherent.idempotent

theorem Coherent.rename_rename (coherent : facts.Coherent) (atom : Atom) :
    facts.rename (facts.rename atom) = facts.rename atom :=
  coherent.refl.rename atom

theorem coherent_none : Coherent none where
  idempotent _ := rfl
  distinct := by simp [none]
  truth := by simp [none]

theorem agrees_none (congruent : Congruent valuation) : none.Agrees valuation where
  representatives := congruent.refl
  distinct := by simp [none]
  truth := by simp [none]

/-! ## Values -/

theorem Agrees.rename (agrees : facts.Agrees valuation) (congruent : Congruent valuation)
    (atom : Atom) : valuation (facts.rename atom) = valuation atom :=
  congruent.renameBy agrees.representatives atom

theorem Agrees.value? (agrees : facts.Agrees valuation) (congruent : Congruent valuation)
    {atom : Atom} {known : Bool} (found : facts.value? atom = some known) :
    valuation atom = known := by
  cases atom with
  | holds predicate arguments =>
      exact agrees.truth (.holds predicate arguments, known) (mem_of_lookup_eq_some found)
  | same left right =>
      simp only [Facts.value?] at found
      split at found
      · next equal =>
          rw [Option.some.injEq] at found
          rw [← found, beq_iff_eq.mp equal]
          exact congruent.refl right
      · split at found
        · next listed =>
            rw [Option.some.injEq] at found
            rw [← found, Bool.eq_false_iff]
            intro equal
            rw [Bool.or_eq_true, List.contains_iff_mem, List.contains_iff_mem] at listed
            rcases listed with inOrder | reversed
            · simpa [equal] using agrees.distinct _ inOrder
            · simpa [congruent.symm equal] using agrees.distinct _ reversed
        · exact absurd found (by simp)

theorem value_same (facts : Facts) (left right : String) :
    facts.value (.same left right) =
      (facts.representative left == facts.representative right) := by
  simp only [value, Facts.rename, renameBy, Facts.value?]
  split
  · next equal => simp [equal]
  · next differ =>
      rw [Bool.not_eq_true] at differ
      rw [differ]
      split <;> rfl

theorem congruent_value (facts : Facts) : Congruent facts.value where
  refl name := by simp [value_same]
  symm equal := by
    simp only [value_same, beq_iff_eq] at equal ⊢
    exact equal.symm
  trans first second := by
    simp only [value_same, beq_iff_eq] at first second ⊢
    exact first.trans second
  holds predicate arguments others equal := by
    simp only [value_same, beq_iff_eq] at equal
    have renamed : arguments.map facts.representative = others.map facts.representative := by
      induction equal with
      | nil => rfl
      | cons headEqual _ induction => rw [List.map_cons, List.map_cons, headEqual, induction]
    simp only [value, Facts.rename, renameBy, renamed]
    rfl

theorem Coherent.agrees_value (coherent : facts.Coherent) : facts.Agrees facts.value where
  representatives name := by simp [value_same, coherent.idempotent]
  distinct pair member := by
    obtain ⟨firstFixed, secondFixed, differ⟩ := coherent.distinct pair member
    simp [value_same, firstFixed, secondFixed, differ]
  truth entry member := by
    obtain ⟨fixed, isHolds, found⟩ := coherent.truth entry member
    rcases entry with ⟨atom, known⟩
    cases atom with
    | holds predicate arguments => simp only [value, fixed, Facts.value?, found, Option.getD_some]
    | same left right => simp [Atom.isEquality] at isHolds

/-! ## Restating -/

section Restate

variable {rename : Atom → Atom} {truth restated listed : List (Atom × Bool)}

/-- Truth values are taken over together with those that are there. -/
theorem restate?_spec :
    (∃ restated, restate? rename truth listed = some restated ∧
        ∀ entry ∈ restated, valuation entry.1 = entry.2) ↔
      (∀ entry ∈ truth, valuation entry.1 = entry.2) ∧
        ∀ entry ∈ listed, valuation (rename entry.1) = entry.2 := by
  induction listed generalizing truth with
  | nil => simp [restate?]
  | cons entry listed induction =>
      obtain ⟨atom, sign⟩ := entry
      simp only [restate?]
      cases found : truth.lookup (rename atom) with
      | none =>
          simp only [induction, List.forall_mem_cons]
          tauto
      | some known =>
          have inTruth : (rename atom, known) ∈ truth := mem_of_lookup_eq_some found
          by_cases same : known = sign
          · subst same
            simp only [beq_self_eq_true, if_true, induction, List.forall_mem_cons]
            constructor
            · rintro ⟨holdsTruth, holdsListed⟩
              exact ⟨holdsTruth, holdsTruth _ inTruth, holdsListed⟩
            · rintro ⟨holdsTruth, _, holdsListed⟩
              exact ⟨holdsTruth, holdsListed⟩
          · simp only [beq_false_of_ne same, Bool.false_eq_true, if_false, List.forall_mem_cons]
            constructor
            · rintro ⟨restated, none, _⟩
              exact absurd none (by simp)
            · rintro ⟨holdsTruth, holdsAtom, _⟩
              exact absurd ((holdsTruth _ inTruth).symm.trans holdsAtom) same

theorem restate?_mem (taken : restate? rename truth listed = some restated) :
    ∀ entry ∈ restated, entry ∈ truth ∨ ∃ before ∈ listed, entry.1 = rename before.1 := by
  induction listed generalizing truth with
  | nil =>
      rw [restate?, Option.some.injEq] at taken
      intro entry member
      exact .inl (taken ▸ member)
  | cons first listed induction =>
      obtain ⟨atom, sign⟩ := first
      simp only [restate?] at taken
      intro entry member
      split at taken
      · rcases induction taken entry member with inTruth | ⟨before, inListed, same⟩
        · rcases List.mem_cons.mp inTruth with rfl | inTruth
          · exact .inr ⟨(atom, sign), by simp, rfl⟩
          · exact .inl inTruth
        · exact .inr ⟨before, List.mem_cons_of_mem _ inListed, same⟩
      · split at taken
        · rcases induction taken entry member with inTruth | ⟨before, inListed, same⟩
          · exact .inl inTruth
          · exact .inr ⟨before, List.mem_cons_of_mem _ inListed, same⟩
        · exact absurd taken (by simp)

theorem restate?_lookup (taken : restate? rename truth listed = some restated)
    (unique : ∀ entry ∈ truth, truth.lookup entry.1 = some entry.2) :
    ∀ entry ∈ restated, restated.lookup entry.1 = some entry.2 := by
  induction listed generalizing truth with
  | nil =>
      rw [restate?, Option.some.injEq] at taken
      exact taken ▸ unique
  | cons first listed induction =>
      obtain ⟨atom, sign⟩ := first
      simp only [restate?] at taken
      split at taken
      · next missing =>
          apply induction taken
          intro entry member
          rcases List.mem_cons.mp member with rfl | inTruth
          · simp
          · have differ : entry.1 ≠ rename atom := by
              intro same
              have found := unique entry inTruth
              simp [same, missing] at found
            rw [List.lookup_cons, beq_false_of_ne differ]
            exact unique entry inTruth
      · split at taken
        · exact induction taken unique
        · exact absurd taken (by simp)

end Restate

/-! ## Merging -/

/-- The name that stands for a representative once `right` is represented by `left`. -/
def moved (left right name : String) : String :=
  if name == right then left else name

section Merge

variable {left right : String}

theorem moved_of_ne {name : String} (differ : name ≠ right) : moved left right name = name := by
  rw [moved, beq_false_of_ne differ, if_neg Bool.false_ne_true]

theorem moved_right : moved left right right = left := by
  simp [moved]

theorem merge?_eq (facts : Facts) (left right : String) :
    facts.merge? left right =
      if facts.distinct.any (fun pair => moved left right pair.1 == moved left right pair.2) then
        Option.none
      else
        (restate? (renameBy (moved left right)) [] facts.truth).map fun truth =>
          { representatives := (right, left) ::
              facts.representatives.map fun entry => (entry.1, moved left right entry.2)
            distinct := facts.distinct.map fun pair =>
              (moved left right pair.1, moved left right pair.2)
            truth := truth } := by
  rw [Option.map_eq_bind]
  have pairs : (facts.distinct.map fun pair =>
        (moved left right pair.1, moved left right pair.2)).any (fun pair => pair.1 == pair.2) =
      facts.distinct.any fun pair => moved left right pair.1 == moved left right pair.2 := by
    rw [List.any_map]
    rfl
  rw [← pairs]
  rfl

/-- What holds of facts that result from merging two names. -/
structure MergedBy (left right : String) (facts merged : Facts) : Prop where
  apart : ∀ pair ∈ facts.distinct, moved left right pair.1 ≠ moved left right pair.2
  representatives : merged.representatives = (right, left) ::
    facts.representatives.map fun entry => (entry.1, moved left right entry.2)
  distinct : merged.distinct =
    facts.distinct.map fun pair => (moved left right pair.1, moved left right pair.2)
  truth : restate? (renameBy (moved left right)) [] facts.truth = some merged.truth

theorem merge?_eq_some_iff {merged : Facts} :
    facts.merge? left right = some merged ↔ MergedBy left right facts merged := by
  rw [merge?_eq]
  constructor
  · intro result
    split at result
    · exact absurd result (by simp)
    · next clear =>
        obtain ⟨truth, restated, rfl⟩ := Option.map_eq_some_iff.mp result
        refine ⟨?_, rfl, rfl, restated⟩
        simpa using clear
  · rintro ⟨apart, representatives, distinct, truth⟩
    rw [if_neg (by simpa using apart), truth]
    rcases merged with ⟨_, _, _⟩
    simp_all

theorem MergedBy.representative {merged : Facts} (isMerged : MergedBy left right facts merged)
    (fixed : facts.representative right = right) (name : String) :
    merged.representative name = moved left right (facts.representative name) := by
  rw [Facts.representative, isMerged.representatives]
  by_cases isRight : name = right
  · subst isRight
    rw [fixed, moved_right]
    simp
  · rw [List.lookup_cons, beq_false_of_ne isRight]
    simp only [lookup_map_values, Facts.representative]
    cases facts.representatives.lookup name with
    | none => exact (moved_of_ne isRight).symm
    | some found => rfl

theorem Coherent.moved_moved (coherent : facts.Coherent)
    (leftFixed : facts.representative left = left) (differ : left ≠ right) (name : String) :
    moved left right (facts.representative (moved left right (facts.representative name))) =
      moved left right (facts.representative name) := by
  by_cases isRight : facts.representative name = right
  · rw [isRight, moved_right, leftFixed, moved_of_ne differ]
  · rw [moved_of_ne isRight, coherent.idempotent, moved_of_ne isRight]

theorem Coherent.merged {merged : Facts} (coherent : facts.Coherent)
    (leftFixed : facts.representative left = left)
    (rightFixed : facts.representative right = right) (differ : left ≠ right)
    (isMerged : MergedBy left right facts merged) : merged.Coherent where
  idempotent name := by
    rw [isMerged.representative rightFixed, isMerged.representative rightFixed]
    exact coherent.moved_moved leftFixed differ name
  distinct pair member := by
    rw [isMerged.distinct] at member
    obtain ⟨before, listed, rfl⟩ := List.mem_map.mp member
    obtain ⟨firstFixed, secondFixed, _⟩ := coherent.distinct before listed
    have firstMoved := coherent.moved_moved leftFixed differ before.1
    have secondMoved := coherent.moved_moved leftFixed differ before.2
    rw [firstFixed] at firstMoved
    rw [secondFixed] at secondMoved
    rw [isMerged.representative rightFixed, isMerged.representative rightFixed]
    exact ⟨firstMoved, secondMoved, isMerged.apart before listed⟩
  truth entry member := by
    have found := restate?_lookup isMerged.truth (by simp) entry member
    obtain inEmpty | ⟨before, listed, renamed⟩ := restate?_mem isMerged.truth entry member
    · simp at inEmpty
    · obtain ⟨fixed, isHolds, _⟩ := coherent.truth before listed
      rcases before with ⟨atom, known⟩
      cases atom with
      | same _ _ => simp [Atom.isEquality] at isHolds
      | holds predicate arguments =>
          simp only [Facts.rename, renameBy, Atom.holds.injEq, true_and] at fixed renamed
          rw [renamed]
          refine ⟨?_, rfl, renamed ▸ found⟩
          simp only [Facts.rename, renameBy, Atom.holds.injEq, true_and]
          rw [← fixed]
          simp only [List.map_map]
          apply List.map_congr_left
          intro argument _
          simp only [Function.comp_apply, isMerged.representative rightFixed]
          exact coherent.moved_moved leftFixed differ argument

theorem Coherent.refinedBy_merged {merged : Facts} (coherent : facts.Coherent)
    (rightFixed : facts.representative right = right)
    (isMerged : MergedBy left right facts merged) : facts.RefinedBy merged := by
  intro name
  rw [isMerged.representative rightFixed, isMerged.representative rightFixed, coherent.idempotent]

theorem same_moved (congruent : Congruent valuation)
    (equal : valuation (.same left right) = true) (name : String) :
    valuation (.same (moved left right name) name) = true := by
  by_cases isRight : name = right
  · rw [isRight, moved_right]
    exact equal
  · rw [moved_of_ne isRight]
    exact congruent.refl name

theorem MergedBy.agrees_before {merged : Facts} (isMerged : MergedBy left right facts merged)
    (congruent : Congruent valuation) (rightFixed : facts.representative right = right)
    (agrees : merged.Agrees valuation) :
    facts.Agrees valuation ∧ valuation (.same left right) = true := by
  have representative := isMerged.representative rightFixed
  have equal : valuation (.same left right) = true := by
    have own := agrees.representatives right
    rwa [representative, rightFixed, moved_right] at own
  have moves := same_moved congruent equal
  have restated := restate?_spec.mp ⟨merged.truth, isMerged.truth, agrees.truth⟩
  refine ⟨⟨fun name => ?_, fun pair member => ?_, fun entry member => ?_⟩, equal⟩
  · have afterName := agrees.representatives name
    rw [representative] at afterName
    exact congruent.trans (congruent.symm (moves _)) afterName
  · rw [← congruent.renameBy moves]
    exact agrees.distinct _ (isMerged.distinct ▸ List.mem_map_of_mem member)
  · rw [← congruent.renameBy moves]
    exact restated.2 entry member

theorem exists_restated (congruent : Congruent valuation)
    (equal : valuation (.same left right) = true) (agrees : facts.Agrees valuation) :
    ∃ truth, restate? (renameBy (moved left right)) [] facts.truth = some truth ∧
      ∀ entry ∈ truth, valuation entry.1 = entry.2 := by
  apply restate?_spec.mpr
  refine ⟨by simp, fun entry member => ?_⟩
  rw [congruent.renameBy (same_moved congruent equal)]
  exact agrees.truth entry member

theorem MergedBy.agrees_after {merged : Facts} (isMerged : MergedBy left right facts merged)
    (congruent : Congruent valuation) (rightFixed : facts.representative right = right)
    (equal : valuation (.same left right) = true) (agrees : facts.Agrees valuation) :
    merged.Agrees valuation := by
  have moves := same_moved congruent equal
  refine ⟨fun name => ?_, fun pair member => ?_, ?_⟩
  · rw [isMerged.representative rightFixed]
    exact congruent.trans (moves _) (agrees.representatives name)
  · rw [isMerged.distinct] at member
    obtain ⟨before, listed, rfl⟩ := List.mem_map.mp member
    exact (congruent.renameBy moves (.same before.1 before.2)).trans
      (agrees.distinct before listed)
  · obtain ⟨truth, restated, truthHolds⟩ := exists_restated congruent equal agrees
    rw [isMerged.truth, Option.some.injEq] at restated
    exact restated ▸ truthHolds

theorem exists_mergedBy (congruent : Congruent valuation)
    (equal : valuation (.same left right) = true) (agrees : facts.Agrees valuation) :
    ∃ merged, MergedBy left right facts merged := by
  obtain ⟨truth, restated, _⟩ := exists_restated congruent equal agrees
  have apart : ∀ pair ∈ facts.distinct, moved left right pair.1 ≠ moved left right pair.2 := by
    intro pair member same
    have differ := agrees.distinct pair member
    rw [← congruent.renameBy (same_moved congruent equal), renameBy, same, congruent.refl] at differ
    exact absurd differ (by simp)
  exact ⟨⟨_, _, truth⟩, apart, rfl, rfl, restated⟩

/-- Merging keeps the valuations that make the two names equal. -/
theorem merge?_spec (congruent : Congruent valuation)
    (rightFixed : facts.representative right = right) :
    (∃ merged, facts.merge? left right = some merged ∧ merged.Agrees valuation) ↔
      facts.Agrees valuation ∧ valuation (.same left right) = true := by
  constructor
  · rintro ⟨merged, result, agrees⟩
    exact (merge?_eq_some_iff.mp result).agrees_before congruent rightFixed agrees
  · rintro ⟨agrees, equal⟩
    obtain ⟨merged, isMerged⟩ := exists_mergedBy congruent equal agrees
    exact ⟨merged, merge?_eq_some_iff.mpr isMerged,
      isMerged.agrees_after congruent rightFixed equal agrees⟩

end Merge

/-! ## Assuming -/

variable {atom : Atom}

theorem agrees_distinct_iff {left right : String} :
    Agrees { facts with distinct := (left, right) :: facts.distinct } valuation ↔
      facts.Agrees valuation ∧ valuation (.same left right) = false := by
  constructor
  · intro agrees
    refine ⟨⟨agrees.representatives, fun pair member => ?_, agrees.truth⟩, ?_⟩
    · exact agrees.distinct pair (List.mem_cons_of_mem _ member)
    · exact agrees.distinct (left, right) (by simp)
  · rintro ⟨agrees, differ⟩
    refine ⟨agrees.representatives, ?_, agrees.truth⟩
    exact List.forall_mem_cons.mpr ⟨differ, agrees.distinct⟩

theorem agrees_truth_iff {sign : Bool} :
    Agrees { facts with truth := (atom, sign) :: facts.truth } valuation ↔
      facts.Agrees valuation ∧ valuation atom = sign := by
  constructor
  · intro agrees
    refine ⟨⟨agrees.representatives, agrees.distinct, fun entry member => ?_⟩, ?_⟩
    · exact agrees.truth entry (List.mem_cons_of_mem _ member)
    · exact agrees.truth (atom, sign) (by simp)
  · rintro ⟨agrees, holds⟩
    refine ⟨agrees.representatives, agrees.distinct, ?_⟩
    exact List.forall_mem_cons.mpr ⟨holds, agrees.truth⟩

theorem assume?_spec (congruent : Congruent valuation) (fixed : facts.rename atom = atom)
    (sign : Bool) :
    (∃ next, facts.assume? sign atom = some next ∧ next.Agrees valuation) ↔
      facts.Agrees valuation ∧ valuation atom = sign := by
  cases found : facts.value? atom with
  | some known =>
      simp only [assume?, found]
      constructor
      · rintro ⟨next, result, agrees⟩
        split at result
        · next same =>
            rw [Option.some.injEq] at result
            subst result
            exact ⟨agrees, (agrees.value? congruent found).trans (beq_iff_eq.mp same)⟩
        · exact absurd result (by simp)
      · rintro ⟨agrees, holds⟩
        have same : known = sign := (agrees.value? congruent found).symm.trans holds
        exact ⟨facts, by simp [same], agrees⟩
  | none =>
      cases atom with
      | holds predicate arguments =>
          simp only [assume?, found, Option.some.injEq, exists_eq_left']
          exact agrees_truth_iff
      | same left right =>
          simp only [Facts.rename, renameBy, Atom.same.injEq] at fixed
          cases sign with
          | true =>
              simp only [assume?, found]
              exact merge?_spec congruent fixed.2
          | false =>
              simp only [assume?, found, Option.some.injEq, exists_eq_left']
              exact agrees_distinct_iff

theorem value?_same_eq_none {left right : String}
    (unknown : facts.value? (.same left right) = Option.none) : left ≠ right := by
  intro equal
  simp [Facts.value?, equal] at unknown

theorem Coherent.assume? (coherent : facts.Coherent) (fixed : facts.rename atom = atom)
    {sign : Bool} (assumed : facts.assume? sign atom = some next) :
    next.Coherent ∧ facts.RefinedBy next := by
  cases found : facts.value? atom with
  | some known =>
      simp only [Facts.assume?, found] at assumed
      split at assumed
      · rw [Option.some.injEq] at assumed
        exact assumed ▸ ⟨coherent, coherent.refl⟩
      · exact absurd assumed (by simp)
  | none =>
      cases atom with
      | holds predicate arguments =>
          simp only [Facts.assume?, found, Option.some.injEq] at assumed
          subst assumed
          refine ⟨⟨coherent.idempotent, coherent.distinct, ?_⟩, coherent.refl⟩
          rw [List.forall_mem_cons]
          refine ⟨⟨fixed, rfl, by simp⟩, fun entry member => ?_⟩
          obtain ⟨entryFixed, isHolds, listed⟩ := coherent.truth entry member
          have differ : entry.1 ≠ .holds predicate arguments := by
            intro same
            simp only [Facts.value?] at found
            simp [same, found] at listed
          refine ⟨entryFixed, isHolds, ?_⟩
          rw [List.lookup_cons, beq_false_of_ne differ]
          exact listed
      | same left right =>
          simp only [Facts.rename, renameBy, Atom.same.injEq] at fixed
          have differ := value?_same_eq_none found
          cases sign with
          | true =>
              simp only [Facts.assume?, found] at assumed
              have isMerged := merge?_eq_some_iff.mp assumed
              exact ⟨coherent.merged fixed.1 fixed.2 differ isMerged,
                coherent.refinedBy_merged fixed.2 isMerged⟩
          | false =>
              simp only [Facts.assume?, found, Option.some.injEq] at assumed
              subst assumed
              refine ⟨⟨coherent.idempotent, ?_, coherent.truth⟩, coherent.refl⟩
              exact List.forall_mem_cons.mpr ⟨⟨fixed.1, fixed.2, differ⟩, coherent.distinct⟩

end Ergo.Ground.Facts
