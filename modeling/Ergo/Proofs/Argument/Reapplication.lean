import Ergo.Proofs.Argument.Building
import Ergo.Proofs.Argument.Compilation
import Ergo.Proofs.Argument.Definitions

/-!
Translations that are applied again. The translation of a sentence declares all symbols of its
formula, so whether the formula fits is settled when it is first applied, and it adds nothing when it
is applied again.
-/

namespace Ergo

open Ergo.English

variable {definitions later : Definitions}

namespace Definitions

/-! ## Translations applied again -/

theorem acceptsTerm_eq_of_lookup?_eq {terms : List Term}
    (same : ∀ name ∈ Formula.constantNames terms, later.lookup? name = definitions.lookup? name) :
    ∀ term ∈ terms, later.acceptsTerm term = definitions.acceptsTerm term := by
  intro term listed
  cases term with
  | constant name => rw [acceptsTerm, acceptsTerm, same name (Formula.mem_constantNames.mpr listed)]
  | var name => rfl

/-- Whether a formula fits depends on the declarations of its own symbols. -/
theorem accepts_eq_of_lookup?_eq {formula : Formula}
    (same : ∀ name ∈ formula.symbolOccurrences, later.lookup? name = definitions.lookup? name) :
    later.accepts formula = definitions.accepts formula := by
  induction formula with
  | truth | falsity => rfl
  | atom predicate arguments =>
      obtain ⟨samePredicate, sameConstants⟩ := List.forall_mem_cons.mp same
      rw [accepts, accepts, acceptsAtom, acceptsAtom, samePredicate,
        all_eq_all_of_mem (acceptsTerm_eq_of_lookup?_eq sameConstants)]
  | equal left right =>
      have terms := acceptsTerm_eq_of_lookup?_eq same
      rw [accepts, accepts, terms left (by simp), terms right (by simp)]
  | not operand induction => exact induction same
  | and parts induction | or parts induction =>
      rw [accepts, accepts, acceptsParts_eq_all, acceptsParts_eq_all]
      refine all_eq_all_of_mem fun part member => induction part member fun name occurs => ?_
      exact same name (by simpa [Formula.symbolOccurrences] using ⟨part, member, occurs⟩)
  | implies premise consequent premiseInduction consequentInduction =>
      obtain ⟨samePremise, sameConsequent⟩ := List.forall_mem_append.mp same
      rw [accepts, accepts, premiseInduction samePremise, consequentInduction sameConsequent]
  | forAll bound body induction | forSome bound body induction =>
      rw [accepts, accepts, induction (List.forall_mem_append.mp same).2]

theorem declareAll_eq_self {declarations : List Declaration}
    (declared : ∀ declaration ∈ declarations,
      (definitions.lookup? declaration.name).isSome = true) :
    definitions.declareAll declarations = definitions := by
  induction declarations with
  | nil => rfl
  | cons declaration declarations induction =>
      obtain ⟨first, rest⟩ := List.forall_mem_cons.mp declared
      rw [declareAll, List.foldl_cons, declare, declare?, if_pos first, Option.getD_none]
      exact induction rest

theorem extends_apply (translation : Translation) :
    (definitions.apply translation).1.Extends
      (definitions.declareAll translation.declarations) := by
  rw [apply]
  split
  · next next added =>
      obtain ⟨formula, -, accepted⟩ := Option.bind_eq_some_iff.mp added
      rw [assertChecked?_eq_some accepted]
      exact extends_append _
  · exact .refl _

theorem assertChecked?_eq_none_iff {formula : Formula} :
    definitions.assertChecked? formula = none ↔
      (definitions.accepts formula = true → .assert formula ∈ definitions.statements) := by
  simp only [assertChecked?, assert?]
  split
  · next accepted => simp [accepted, mem_assertions_iff]
  · next refused => simp [refused]

theorem mem_statements_apply {translation : Translation} {formula : Formula}
    (stated : translation.assertion? = some formula)
    (accepted : (definitions.declareAll translation.declarations).accepts formula = true) :
    .assert formula ∈ (definitions.apply translation).1.statements := by
  rw [apply, stated, Option.bind_some]
  split
  · next next added =>
      rw [assertChecked?_eq_some added]
      simp [append]
  · next known => exact assertChecked?_eq_none_iff.mp known accepted

end Definitions

/-- Every symbol of the formula is declared along with it. -/
def Translation.IsClosed (translation : Translation) : Prop :=
  ∀ formula, translation.assertion? = some formula →
    ∀ name ∈ formula.symbolOccurrences, name ∈ translation.declarations.map Declaration.name

namespace Definitions

variable {translation : Translation} {translations : List Translation}

/-- What a translation declares, and whether its formula then fits, stays so. -/
theorem apply_eq_self (isClosed : translation.IsClosed)
    (extension : later.Extends (definitions.apply translation).1) :
    (later.apply translation).1 = later := by
  have declared : ∀ declaration ∈ translation.declarations,
      ((definitions.declareAll translation.declarations).lookup? declaration.name).isSome = true :=
    fun declaration => isSome_lookup?_declareAll
  have onward : later.Extends (definitions.declareAll translation.declarations) :=
    extension.trans (extends_apply translation)
  have unchanged : later.declareAll translation.declarations = later :=
    declareAll_eq_self fun declaration listed =>
      onward.isSome_lookup? (declared declaration listed)
  rw [apply, unchanged]
  split
  · next next added =>
      obtain ⟨formula, stated, asserted⟩ := Option.bind_eq_some_iff.mp added
      have fits : later.accepts formula =
          (definitions.declareAll translation.declarations).accepts formula := by
        refine accepts_eq_of_lookup?_eq fun name occurs => ?_
        obtain ⟨declaration, listed, rfl⟩ := List.mem_map.mp (isClosed formula stated name occurs)
        obtain ⟨first, found⟩ := Option.isSome_iff_exists.mp (declared declaration listed)
        rw [found, onward.lookup? found]
      have known : later.assertChecked? formula = none := by
        rw [assertChecked?_eq_none_iff, fits]
        exact fun accepted => extension.subset (mem_statements_apply stated accepted)
      rw [known] at asserted
      cases asserted
  · rfl

theorem extends_applyAll :
    (definitions.applyAll translations).Extends definitions := by
  induction translations generalizing definitions with
  | nil => exact .refl definitions
  | cons translation translations induction =>
      exact (induction.trans (extends_apply translation)).trans (extends_declareAll _)

theorem exists_extends_of_mem_applyAll (member : translation ∈ translations) :
    ∃ before, (definitions.applyAll translations).Extends (apply before translation).1 := by
  induction translations generalizing definitions with
  | nil => cases member
  | cons first rest induction =>
      rcases List.mem_cons.mp member with rfl | inRest
      · exact ⟨definitions, extends_applyAll⟩
      · exact induction inRest

theorem applyAll_append (others : List Translation) :
    definitions.applyAll (translations ++ others) =
      (definitions.applyAll translations).applyAll others :=
  List.foldl_append

theorem applyAll_eq_self
    (each : ∀ translation ∈ translations, (definitions.apply translation).1 = definitions) :
    definitions.applyAll translations = definitions := by
  induction translations with
  | nil => rfl
  | cons translation translations induction =>
      obtain ⟨first, rest⟩ := List.forall_mem_cons.mp each
      rw [applyAll, List.foldl_cons, first]
      exact induction rest

theorem applyAll_append_self (closed : ∀ translation ∈ translations, translation.IsClosed) :
    definitions.applyAll (translations ++ translations) = definitions.applyAll translations := by
  rw [applyAll_append]
  refine applyAll_eq_self fun translation member => ?_
  obtain ⟨before, extension⟩ := exists_extends_of_mem_applyAll member
  exact apply_eq_self (closed translation member) extension

end Definitions

/-! ## Sentences -/

namespace Translation

theorem isClosed_declaring (declarations : List Declaration) :
    { nothing with declarations := declarations }.IsClosed := by
  simp [IsClosed, nothing]

theorem isClosed_asserting {declarations : List Declaration} {formula : Formula}
    (symbols : ∀ name ∈ formula.symbolOccurrences, name ∈ declarations.map Declaration.name) :
    (asserting declarations formula).IsClosed := by
  intro stated same
  cases same
  exact symbols

theorem isClosed_getD {translation? : Option Translation}
    (closed : ∀ translation, translation? = some translation → translation.IsClosed) :
    (translation?.getD nothing).IsClosed := by
  cases translation? with
  | none => exact isClosed_declaring []
  | some translation => exact closed translation rfl

end Translation

open Translation

section Shapes

variable {first second name : String}

@[simp] theorem Formula.symbolOccurrences_overlap :
    (Formula.overlap first second).symbolOccurrences = ["x", first, second] := rfl

@[simp] theorem Formula.symbolOccurrences_signed (negated : Bool) (formula : Formula) :
    (Formula.signed negated formula).symbolOccurrences = formula.symbolOccurrences := by
  cases negated <;> rfl

@[simp] theorem Formula.symbolOccurrences_not (formula : Formula) :
    (Formula.not formula).symbolOccurrences = formula.symbolOccurrences := rfl

end Shapes

namespace English.Vocabulary

variable {vocabulary : Vocabulary} {sentence : Sentence} {translation : Translation}

theorem isClosed_universal? (translated : vocabulary.universal? sentence = some translation) :
    translation.IsClosed := by
  simp only [universal?, bind, pure, Option.bind_eq_some_iff, Option.some.injEq] at translated
  obtain ⟨_, -, _, -, _, -, first, -, second, -, rfl⟩ := translated
  exact isClosed_asserting (by simp)

theorem isClosed_existential? (translated : vocabulary.existential? sentence = some translation) :
    translation.IsClosed := by
  simp only [existential?, bind, pure, Option.bind_eq_some_iff, Option.some.injEq] at translated
  obtain ⟨_, -, _, -, _, -, first, -, second, -, rfl⟩ := translated
  exact isClosed_asserting (by simp)

theorem isClosed_complementTranslation (subject : String) (negated : Bool)
    (complement : Complement) : (complementTranslation subject negated complement).IsClosed := by
  unfold complementTranslation
  split
  · split
    · exact isClosed_asserting (by simp)
    · exact isClosed_declaring _
  · split
    · exact isClosed_asserting (by simp)
    · exact isClosed_declaring _
  · exact isClosed_declaring _

theorem isClosed_predication? (translated : vocabulary.predication? sentence = some translation) :
    translation.IsClosed := by
  simp only [predication?, bind, pure, Option.bind_eq_some_iff, Option.some.injEq] at translated
  obtain ⟨_, -, _, -, _, -, rfl⟩ := translated
  exact isClosed_complementTranslation _ _ _

theorem isClosed_implication? (translated : vocabulary.implication? sentence = some translation) :
    translation.IsClosed := by
  simp only [implication?, bind, pure, Option.bind_eq_some_iff, Option.some.injEq] at translated
  obtain ⟨_, -, _, -, _, -, _, -, name, -, rfl⟩ := translated
  exact isClosed_asserting (by simp)

theorem isClosed_negationFallback?
    (translated : vocabulary.negationFallback? sentence = some translation) :
    translation.IsClosed := by
  simp only [negationFallback?, bind, pure, Option.bind_eq_some_iff, Option.some.injEq] at translated
  obtain ⟨_, -, name, -, rfl⟩ := translated
  exact isClosed_asserting (by simp)

theorem isClosed_neitherOf? {first second : String}
    (translated : vocabulary.neitherOf? sentence first second = some translation) :
    translation.IsClosed := by
  simp only [neitherOf?, bind, pure, Option.bind_eq_some_iff, Option.some.injEq] at translated
  obtain ⟨_, -, name, -, rfl⟩ := translated
  exact isClosed_asserting (by simp [Formula.symbolOccurrences])

theorem isClosed_negatedPart? {part : NegatedPart}
    (translated : vocabulary.negatedPart? part = some translation) : translation.IsClosed := by
  unfold negatedPart? at translated
  split at translated
  · simp only [bind, pure] at translated
    split at translated
    · obtain ⟨name, -, same⟩ := Option.bind_eq_some_iff.mp translated
      cases same
      exact isClosed_asserting (by simp)
    · cases translated
  · simp only [bind, pure, Option.bind_eq_some_iff, Option.some.injEq] at translated
    obtain ⟨name, -, rfl⟩ := translated
    exact isClosed_asserting (by simp)
  · cases translated

theorem isClosed_negation? (translated : vocabulary.negation? sentence = some translation) :
    translation.IsClosed := by
  unfold negation? at translated
  dsimp only at translated
  split at translated
  · split at translated
    · exact isClosed_neitherOf? translated
    · exact isClosed_negationFallback? translated
  · rcases Option.or_eq_some_iff.mp translated with ofPart | ⟨-, fallback⟩
    · obtain ⟨part, -, partTranslated⟩ := Option.bind_eq_some_iff.mp ofPart
      exact isClosed_negatedPart? partTranslated
    · exact isClosed_negationFallback? fallback

theorem isClosed_translate (vocabulary : Vocabulary) (sentence : Sentence) :
    (vocabulary.translate sentence).IsClosed := by
  rw [translate]
  cases sentence.category with
  | universal => exact isClosed_getD fun _ => isClosed_universal?
  | existential => exact isClosed_getD fun _ => isClosed_existential?
  | predication => exact isClosed_getD fun _ => isClosed_predication?
  | implication => exact isClosed_getD fun _ => isClosed_implication?
  | negation => exact isClosed_getD fun _ => isClosed_negation?
  | unclassified => exact isClosed_declaring []

end English.Vocabulary

end Ergo
