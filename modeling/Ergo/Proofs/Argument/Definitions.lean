import Ergo.Argument.Definitions

/-!
The assertions of definitions while they are put together. Declarations leave them alone, and a
translation adds at most its own formula.
-/

namespace Ergo

namespace Definitions

variable {definitions : Definitions}

/-! ## Declarations -/

theorem assertions_append_declare (declaration : Declaration) :
    (definitions.append (.declare declaration)).assertions = definitions.assertions :=
  List.append_nil _

theorem assertions_declare (declaration : Declaration) :
    (definitions.declare declaration).assertions = definitions.assertions := by
  unfold declare declare?
  split
  · rfl
  · rw [Option.getD_some, assertions_append_declare]

theorem assertions_declareAll (declarations : List Declaration) :
    (definitions.declareAll declarations).assertions = definitions.assertions := by
  unfold declareAll
  induction declarations generalizing definitions with
  | nil => rfl
  | cons declaration declarations induction =>
      rw [List.foldl_cons, induction, assertions_declare]

/-! ## Translations -/

theorem assertChecked?_eq_some {next : Definitions} {formula : Formula}
    (added : definitions.assertChecked? formula = some next) :
    next = definitions.append (.assert formula) := by
  unfold assertChecked? assert? at added
  split at added
  · split at added
    · exact absurd added (by simp)
    · exact (Option.some.inj added).symm
  · exact absurd added (by simp)

theorem assertions_append_assert (formula : Formula) :
    (definitions.append (.assert formula)).assertions = definitions.assertions ++ [formula] :=
  rfl

theorem mem_assertions_assertAll {formulas : List Formula} {formula : Formula}
    (asserted : formula ∈ (definitions.assertAll formulas).assertions) :
    formula ∈ definitions.assertions ∨ formula ∈ formulas := by
  unfold assertAll at asserted
  induction formulas generalizing definitions with
  | nil => exact .inl asserted
  | cons first formulas induction =>
      rw [List.foldl_cons] at asserted
      rcases induction asserted with before | later
      · unfold assert assert? at before
        split at before
        · exact .inl before
        · rw [Option.getD_some, assertions_append_assert, List.mem_append] at before
          exact before.imp_right fun same => by simpa using .inl (List.mem_singleton.mp same)
      · exact .inr (List.mem_cons_of_mem _ later)

/-- A translation asserts its own formula or nothing. -/
theorem mem_assertions_apply {translation : Translation} {formula : Formula}
    (asserted : formula ∈ (definitions.apply translation).1.assertions) :
    formula ∈ definitions.assertions ∨ translation.assertion? = some formula := by
  unfold apply at asserted
  simp only at asserted
  split at asserted
  · next next added =>
      obtain ⟨stated, isStated, accepted⟩ := Option.bind_eq_some_iff.mp added
      rw [assertChecked?_eq_some accepted, assertions_append_assert, assertions_declareAll,
        List.mem_append, List.mem_singleton] at asserted
      rcases asserted with earlier | rfl
      · exact .inl earlier
      · exact .inr isStated
  · rw [assertions_declareAll] at asserted
    exact .inl asserted

theorem mem_assertions_applyAll {translations : List Translation} {formula : Formula}
    (asserted : formula ∈ (definitions.applyAll translations).assertions) :
    formula ∈ definitions.assertions ∨
      ∃ translation ∈ translations, translation.assertion? = some formula := by
  unfold applyAll at asserted
  induction translations generalizing definitions with
  | nil => exact .inl asserted
  | cons translation translations induction =>
      rw [List.foldl_cons] at asserted
      rcases induction asserted with before | ⟨later, member, stated⟩
      · rcases mem_assertions_apply before with earlier | stated
        · exact .inl earlier
        · exact .inr ⟨translation, List.mem_cons_self, stated⟩
      · exact .inr ⟨later, List.mem_cons_of_mem _ member, stated⟩

end Definitions

end Ergo
