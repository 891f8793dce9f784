import Ergo.Proofs.Argument.Predication
import Ergo.Proofs.Argument.Reapplication
import Ergo.Proofs.Argument.Registration
import Ergo.Proofs.Lists

/-!
Quantified sentences as premises. A sentence of either quantified category asserts the unsigned
formula of its subject and predicate, whatever stands between the two, so it keeps its sign just if
no negation stands there (`sign_of_quantified`).
-/

namespace Ergo.Definitions

variable {definitions : Definitions} {translation : Translation} {formula : Formula}

/-! ## Assertions that a translation adds -/

/-- The translation adds the formula to what is asserted. -/
def Gains (definitions : Definitions) (translation : Translation) (formula : Formula) : Prop :=
  (definitions.apply translation).1.assertions = definitions.assertions ++ [formula]

instance : Decidable (definitions.Gains translation formula) :=
  inferInstanceAs (Decidable (_ = _))

theorem gains_iff :
    definitions.Gains translation formula ↔
      translation.assertion? = some formula ∧ formula ∉ definitions.assertions ∧
        (definitions.declareAll translation.declarations).accepts formula = true := by
  have declared := definitions.assertions_declareAll translation.declarations
  rw [Gains, apply]
  cases added : translation.assertion?.bind
      (definitions.declareAll translation.declarations).assertChecked? with
  | none =>
      refine iff_of_false (by simp [declared]) ?_
      rintro ⟨stated, isNew, accepted⟩
      rw [stated, Option.bind_some, assertChecked?_eq_none_iff] at added
      rw [← declared, mem_assertions_iff] at isNew
      exact isNew (added accepted)
  | some next =>
      obtain ⟨assertion, stated, checked⟩ := Option.bind_eq_some_iff.mp added
      obtain ⟨accepted, asserted⟩ := assertChecked?_eq_some_iff.mp checked
      obtain ⟨isNew, rfl⟩ := assert?_eq_some asserted
      rw [← mem_assertions_iff, declared] at isNew
      simp only [assertions_append_assert, declared, List.append_cancel_left_eq, List.cons.injEq,
        and_true, stated, Option.some.injEq]
      constructor
      · rintro rfl
        exact ⟨rfl, isNew, accepted⟩
      · exact And.left

/-- The name is not declared, or it is that of a predicate or relation with one argument. -/
def MayBeProperty (definitions : Definitions) (name : String) : Prop :=
  ∀ declaration, definitions.lookup? name = some declaration →
    ∃ sortName, declaration.domain? = some [sortName]

theorem acceptsAtom_property_iff {declarations : List Declaration} {name binder : String}
    (isDeclared : (declarations.find? fun declaration => declaration.name == name) =
      some (.property name)) :
    (definitions.declareAll declarations).acceptsAtom name [.var binder] = true ↔
      definitions.MayBeProperty name := by
  rw [acceptsAtom, lookup?_declareAll, isDeclared, MayBeProperty]
  cases found : definitions.lookup? name with
  | none => simp [Declaration.property, Declaration.domain?, acceptsTerm]
  | some declaration =>
      cases isDomain : declaration.domain? with
      | none => simp [isDomain]
      | some domain => simp [isDomain, acceptsTerm, List.length_eq_one_iff]

end Ergo.Definitions

namespace Ergo.English

/-! ## Quantified forms -/

inductive QuantifiedForm
  | universal
  | existential
  deriving DecidableEq, Repr

namespace QuantifiedForm

def category : QuantifiedForm → Category
  | .universal => .universal
  | .existential => .existential

/-- The words of which the first in a sentence counts as its quantifier. -/
def quantifiers : QuantifiedForm → List String
  | .universal => Sentence.universalWords
  | .existential => ["some", "exists", "there"]

/-- Where the predicate may stand, given the places of the quantifier and the subject: after the
copula or else after the subject, or anywhere but on the quantifier. -/
def predicatePlaces (sentence : Sentence) (quantifier subjectPlace : Nat) :
    QuantifiedForm → List Nat
  | .universal => sentence.onwards (Vocabulary.universalStart sentence subjectPlace)
  | .existential => (sentence.onwards 0).filter (· != quantifier)

/-- The formula of a subject and a predicate, without a negation. -/
def unsigned (subject predicate : String) : QuantifiedForm → Formula
  | .universal => .inclusion subject predicate
  | .existential => .overlap subject predicate

def translation? (vocabulary : Vocabulary) (sentence : Sentence) :
    QuantifiedForm → Option Translation
  | .universal => vocabulary.universal? sentence
  | .existential => vocabulary.existential? sentence

end QuantifiedForm

/-- The quantifier of a sentence and the words taken for its subject and its predicate. -/
structure Quantification where
  quantifier : Nat
  subjectPlace : Nat
  subject : String
  predicatePlace : Nat
  headword : String
  deriving DecidableEq, Repr

namespace Quantification

variable {vocabulary : Vocabulary} {sentence : Sentence} {form : QuantifiedForm}

/-- The subject is the first known thing after the quantifier, and the predicate the first known one
where it may stand. -/
structure IsChosen (vocabulary : Vocabulary) (sentence : Sentence) (form : QuantifiedForm)
    (chosen : Quantification) : Prop where
  isQuantifier : sentence.find? form.quantifiers = some chosen.quantifier
  afterQuantifier : chosen.quantifier < chosen.subjectPlace
  isSubject : sentence.words[chosen.subjectPlace]?.bind vocabulary.entity? = some chosen.subject
  noSubject : ∀ place, chosen.quantifier < place → place < chosen.subjectPlace →
    sentence.words[place]?.bind vocabulary.entity? = none
  mayStand : chosen.predicatePlace ∈
    form.predicatePlaces sentence chosen.quantifier chosen.subjectPlace
  isPredicate : sentence.words[chosen.predicatePlace]?.bind vocabulary.predicate? =
    some chosen.headword
  noPredicate : ∀ place ∈ form.predicatePlaces sentence chosen.quantifier chosen.subjectPlace,
    place < chosen.predicatePlace → sentence.words[place]?.bind vocabulary.predicate? = none

/-- The formula of the chosen words, without a negation. -/
def unsigned? (form : QuantifiedForm) (chosen : Quantification) : Option Formula := do
  let subject ← predicateName chosen.subject
  let predicate ← predicateName chosen.headword
  return form.unsigned subject predicate

/-- The formula is the unsigned one of the chosen words, is new, and uses two names that are those of
predicates or can be. -/
def MayAssert (definitions : Definitions) (form : QuantifiedForm) (formula : Formula)
    (chosen : Quantification) : Prop :=
  ∃ subject predicate, predicateName chosen.subject = some subject ∧
    predicateName chosen.headword = some predicate ∧ formula = form.unsigned subject predicate ∧
    definitions.MayBeProperty subject ∧ definitions.MayBeProperty predicate ∧
    formula ∉ definitions.assertions

theorem MayAssert.unsigned?_eq {definitions : Definitions} {formula : Formula}
    {chosen : Quantification} (mayAssert : chosen.MayAssert definitions form formula) :
    chosen.unsigned? form = some formula := by
  obtain ⟨subject, predicate, subjectNamed, predicateNamed, rfl, -⟩ := mayAssert
  simp [unsigned?, subjectNamed, predicateNamed]

theorem IsChosen.unique {chosen other : Quantification}
    (isChosen : chosen.IsChosen vocabulary sentence form)
    (otherChosen : other.IsChosen vocabulary sentence form) : chosen = other := by
  obtain ⟨quantifier, subjectPlace, subject, predicatePlace, headword⟩ := chosen
  obtain ⟨otherQuantifier, otherSubjectPlace, otherSubject, otherPredicatePlace, otherHeadword⟩ := other
  obtain ⟨isQuantifier, after, isSubject, noSubject, mayStand, isPredicate, noPredicate⟩ := isChosen
  obtain ⟨otherIsQuantifier, otherAfter, otherIsSubject, otherNoSubject, otherMayStand,
    otherIsPredicate, otherNoPredicate⟩ := otherChosen
  dsimp only at *
  obtain rfl := Option.some.inj (isQuantifier.symm.trans otherIsQuantifier)
  obtain rfl : subjectPlace = otherSubjectPlace := by
    rcases Nat.lt_trichotomy subjectPlace otherSubjectPlace with before | same | behind
    · cases isSubject.symm.trans (otherNoSubject subjectPlace after before)
    · exact same
    · cases otherIsSubject.symm.trans (noSubject otherSubjectPlace otherAfter behind)
  obtain rfl := Option.some.inj (isSubject.symm.trans otherIsSubject)
  obtain rfl : predicatePlace = otherPredicatePlace := by
    rcases Nat.lt_trichotomy predicatePlace otherPredicatePlace with before | same | behind
    · cases isPredicate.symm.trans (otherNoPredicate predicatePlace mayStand before)
    · exact same
    · cases otherIsPredicate.symm.trans (noPredicate otherPredicatePlace otherMayStand behind)
  obtain rfl := Option.some.inj (isPredicate.symm.trans otherIsPredicate)
  rfl

/-- A negation stands between the subject and a later predicate. -/
def IsNegated (sentence : Sentence) (chosen : Quantification) : Prop :=
  ∃ place, chosen.subjectPlace < place ∧ place < chosen.predicatePlace ∧
    sentence.negatedAt place = true

end Quantification

/-! ## What a quantified sentence asserts -/

section Translations

variable {vocabulary : Vocabulary} {sentence : Sentence} {form : QuantifiedForm}
  {translation : Translation} {definitions : Definitions} {formula : Formula}

theorem entityAmong?_onwards_eq_some_iff {start place : Nat} {subject : String} :
    vocabulary.entityAmong? sentence (sentence.onwards start) = some (place, subject) ↔
      start ≤ place ∧ sentence.words[place]?.bind vocabulary.entity? = some subject ∧
        ∀ earlier, start ≤ earlier → earlier < place →
          sentence.words[earlier]?.bind vocabulary.entity? = none := by
  rw [Vocabulary.entityAmong?, Sentence.onwards, Sentence.findSome?_span_eq_some_iff]
  simp only [Option.map_eq_some_iff, Option.map_eq_none_iff, Prod.mk.injEq]
  constructor
  · rintro ⟨_, fromStart, -, ⟨_, isEntity, rfl, rfl⟩, missing⟩
    exact ⟨fromStart, isEntity, missing⟩
  · rintro ⟨fromStart, isEntity, missing⟩
    obtain ⟨word, inside, -⟩ := Option.bind_eq_some_iff.mp isEntity
    exact ⟨place, fromStart, (List.getElem?_eq_some_iff.mp inside).1,
      ⟨subject, isEntity, rfl, rfl⟩, missing⟩

theorem pairwise_predicatePlaces (quantifier subjectPlace : Nat) :
    (form.predicatePlaces sentence quantifier subjectPlace).Pairwise (· < ·) := by
  cases form with
  | universal => exact List.pairwise_lt_range'
  | existential => exact .filter _ List.pairwise_lt_range'

theorem translation?_eq_some_iff :
    form.translation? vocabulary sentence = some translation ↔
      ∃ chosen : Quantification, chosen.IsChosen vocabulary sentence form ∧
        ∃ subject predicate, predicateName chosen.subject = some subject ∧
          predicateName chosen.headword = some predicate ∧
          translation = .asserting [.property subject, .property predicate, .objectVariable "x"]
            (form.unsigned subject predicate) := by
  have parts : form.translation? vocabulary sentence = (do
      let quantifier ← sentence.find? form.quantifiers
      let subject ← vocabulary.entityAmong? sentence (sentence.onwards (quantifier + 1))
      let headword ← vocabulary.predicateAmong? sentence
        (form.predicatePlaces sentence quantifier subject.1)
      let first ← predicateName subject.2
      let second ← predicateName headword
      return .asserting [.property first, .property second, .objectVariable "x"]
        (form.unsigned first second)) := by
    cases form <;> rfl
  rw [parts]
  simp only [Option.bind_eq_bind, Option.bind_eq_some_iff, Option.pure_def, Option.some.injEq]
  constructor
  · rintro ⟨quantifier, isQuantifier, ⟨subjectPlace, subject⟩, isFirst, headword, isHeadword, first,
      firstNamed, second, secondNamed, rfl⟩
    obtain ⟨afterQuantifier, isSubject, noSubject⟩ := entityAmong?_onwards_eq_some_iff.mp isFirst
    obtain ⟨predicatePlace, mayStand, isPredicate, noPredicate⟩ :=
      (findSome?_eq_some_iff_of_sorted (pairwise_predicatePlaces _ _)).mp isHeadword
    exact ⟨⟨quantifier, subjectPlace, subject, predicatePlace, headword⟩,
      { isQuantifier, afterQuantifier, isSubject, noSubject, mayStand, isPredicate, noPredicate },
      first, second, firstNamed, secondNamed, rfl⟩
  · rintro ⟨chosen, isChosen, first, second, firstNamed, secondNamed, rfl⟩
    exact ⟨chosen.quantifier, isChosen.isQuantifier, ⟨chosen.subjectPlace, chosen.subject⟩,
      entityAmong?_onwards_eq_some_iff.mpr
        ⟨isChosen.afterQuantifier, isChosen.isSubject, isChosen.noSubject⟩,
      chosen.headword,
      (findSome?_eq_some_iff_of_sorted (pairwise_predicatePlaces _ _)).mpr
        ⟨chosen.predicatePlace, isChosen.mayStand, isChosen.isPredicate, isChosen.noPredicate⟩,
      first, firstNamed, second, secondNamed, rfl⟩

theorem translate_eq (quantified : sentence.category = form.category) :
    vocabulary.translate sentence = (form.translation? vocabulary sentence).getD .nothing := by
  rw [Vocabulary.translate, quantified]
  cases form <;> rfl

theorem accepts_unsigned_iff {subject predicate : String} :
    (definitions.declareAll
        [.property subject, .property predicate, .objectVariable "x"]).accepts
      (form.unsigned subject predicate) = true ↔
      definitions.MayBeProperty subject ∧ definitions.MayBeProperty predicate := by
  let declarations : List Declaration :=
    [.property subject, .property predicate, .objectVariable "x"]
  have subjectDeclared : (declarations.find? fun declaration => declaration.name == subject) =
      some (.property subject) := by
    simp [declarations]
  have predicateDeclared : (declarations.find? fun declaration => declaration.name == predicate) =
      some (.property predicate) := by
    by_cases same : subject = predicate <;> simp [declarations, same]
  have parts : (definitions.declareAll declarations).accepts (form.unsigned subject predicate) =
      ((definitions.declareAll declarations).acceptsAtom subject [.var "x"] &&
        (definitions.declareAll declarations).acceptsAtom predicate [.var "x"]) := by
    cases form <;> simp [QuantifiedForm.unsigned, Formula.inclusion, Formula.overlap,
      Definitions.accepts]
  rw [parts, Bool.and_eq_true, Definitions.acceptsAtom_property_iff subjectDeclared,
    Definitions.acceptsAtom_property_iff predicateDeclared]

/-- What a sentence of a quantified category adds, whether or not it is negated. -/
theorem gains_translate_iff (quantified : sentence.category = form.category) :
    definitions.Gains (vocabulary.translate sentence) formula ↔
      ∃ chosen : Quantification, chosen.IsChosen vocabulary sentence form ∧
        chosen.MayAssert definitions form formula := by
  rw [Definitions.gains_iff, translate_eq quantified]
  constructor
  · rintro ⟨stated, isNew, accepted⟩
    cases translated : form.translation? vocabulary sentence with
    | none => simp [translated, Translation.nothing] at stated
    | some translation =>
        obtain ⟨chosen, isChosen, subject, predicate, subjectNamed, predicateNamed, rfl⟩ :=
          translation?_eq_some_iff.mp translated
        rw [translated, Option.getD_some] at stated accepted
        obtain rfl : form.unsigned subject predicate = formula := Option.some.inj stated
        exact ⟨chosen, isChosen, subject, predicate, subjectNamed, predicateNamed, rfl,
          (accepts_unsigned_iff.mp accepted).1, (accepts_unsigned_iff.mp accepted).2, isNew⟩
  · rintro ⟨chosen, isChosen, subject, predicate, subjectNamed, predicateNamed, rfl, subjectFits,
      predicateFits, isNew⟩
    have translated := translation?_eq_some_iff.mpr
      ⟨chosen, isChosen, subject, predicate, subjectNamed, predicateNamed, rfl⟩
    rw [translated, Option.getD_some]
    exact ⟨rfl, isNew, accepts_unsigned_iff.mpr ⟨subjectFits, predicateFits⟩⟩

/-- If a negation stands between subject and predicate, their unsigned formula is not added. -/
def KeepsSign (definitions : Definitions) (vocabulary : Vocabulary) (sentence : Sentence)
    (form : QuantifiedForm) : Prop :=
  ∀ chosen : Quantification, chosen.IsChosen vocabulary sentence form → chosen.IsNegated sentence →
    ∀ formula, chosen.unsigned? form = some formula →
      ¬ definitions.Gains (vocabulary.translate sentence) formula

/-- A sentence of a quantified category adds the unsigned formula of its subject and its predicate if
both names can be those of predicates and the formula is new. So it keeps its sign just if no such
formula is that of a subject and a predicate with a negation between them. -/
theorem sign_of_quantified (quantified : sentence.category = form.category) :
    (∀ formula, definitions.Gains (vocabulary.translate sentence) formula ↔
      ∃ chosen : Quantification, chosen.IsChosen vocabulary sentence form ∧
        chosen.MayAssert definitions form formula) ∧
      (KeepsSign definitions vocabulary sentence form ↔
        ∀ chosen : Quantification, chosen.IsChosen vocabulary sentence form →
          chosen.IsNegated sentence → ∀ formula, ¬ chosen.MayAssert definitions form formula) := by
  refine ⟨fun formula => gains_translate_iff quantified, ?_, ?_⟩
  · intro keepsSign chosen isChosen isNegated formula mayAssert
    exact keepsSign chosen isChosen isNegated formula mayAssert.unsigned?_eq
      ((gains_translate_iff quantified).mpr ⟨chosen, isChosen, mayAssert⟩)
  · intro noneAsserted chosen isChosen isNegated formula _ gained
    obtain ⟨other, otherChosen, mayAssert⟩ := (gains_translate_iff quantified).mp gained
    obtain rfl := isChosen.unique otherChosen
    exact noneAsserted _ isChosen isNegated formula mayAssert

end Translations

/-! ## Birds that are not mortal -/

def birdsNotMortal (text quantifier : String) : Sentence :=
  { text := text
    words := [⟨quantifier, .determiner, quantifier⟩, ⟨"birds", .pluralNoun, "bird"⟩,
      ⟨"are", .verb, "be"⟩, ⟨"not", .adverb, "not"⟩, ⟨"mortal", .adjective, "mortal"⟩,
      ⟨".", .punctuation, "."⟩]
    namedEntities := [] }

def allBirds : Sentence :=
  birdsNotMortal "All birds are not mortal." "all"

def someBirds : Sentence :=
  birdsNotMortal "Some birds are not mortal." "some"

/-- The vocabulary that is taken from a sentence alone. -/
def ownVocabulary (sentence : Sentence) : Vocabulary :=
  Vocabulary.empty.extend .ruleBased [] sentence

/-- The birds and what is said of them, with the negation between the two. -/
def mortalBirds : Quantification :=
  { quantifier := 0, subjectPlace := 1, subject := "bird", predicatePlace := 4, headword := "mortal" }

theorem analyze_someBirds :
    Sentence.analyze .ruleBased "Some birds are not mortal." = someBirds := by
  decide +kernel

set_option maxRecDepth 2000 in
theorem isChosen_allBirds : mortalBirds.IsChosen (ownVocabulary allBirds) allBirds .universal where
  isQuantifier := by decide
  afterQuantifier := by decide
  isSubject := by decide
  noSubject place after before := by simp only [mortalBirds] at after before; omega
  mayStand := by decide
  isPredicate := by decide
  noPredicate := by decide

set_option maxRecDepth 2000 in
theorem isChosen_someBirds :
    mortalBirds.IsChosen (ownVocabulary someBirds) someBirds .existential where
  isQuantifier := by decide
  afterQuantifier := by decide
  isSubject := by decide
  noSubject place after before := by simp only [mortalBirds] at after before; omega
  mayStand := by decide
  isPredicate := by decide
  noPredicate := by decide

theorem mayAssert_mortalBirds (form : QuantifiedForm) :
    mortalBirds.MayAssert .empty form (form.unsigned "Bird" "Mortal") := by
  have undeclared (name : String) : Definitions.empty.MayBeProperty name := by
    intro declaration found
    cases found
  exact ⟨"Bird", "Mortal", by decide, by decide, rfl, undeclared _, undeclared _,
    List.not_mem_nil⟩

/-- That all birds are not mortal is taken to say that they all are. -/
theorem allBirds_are_mortal :
    allBirds.category = .universal ∧ allBirds.negatedAt 3 = true ∧
      Definitions.empty.Gains ((ownVocabulary allBirds).translate allBirds)
        (.inclusion "Bird" "Mortal") ∧
      ¬ KeepsSign .empty (ownVocabulary allBirds) allBirds .universal := by
  have category : allBirds.category = .universal := by decide
  have isNegation : allBirds.negatedAt 3 = true := by decide
  obtain ⟨gains, keepsSign_iff⟩ := @sign_of_quantified (ownVocabulary allBirds) allBirds .universal
    .empty category
  have mayAssert := mayAssert_mortalBirds .universal
  refine ⟨category, isNegation, (gains _).mpr ⟨_, isChosen_allBirds, mayAssert⟩, fun keepsSign => ?_⟩
  exact keepsSign_iff.mp keepsSign _ isChosen_allBirds ⟨3, by decide, by decide, isNegation⟩ _ mayAssert

/-- Not every quantified sentence keeps its sign. -/
theorem not_keepsSign :
    ¬ ∀ (definitions : Definitions) (vocabulary : Vocabulary) (toolkit : Toolkit) (text : String)
        (form : QuantifiedForm), (Sentence.analyze toolkit text).category = form.category →
          KeepsSign definitions vocabulary (Sentence.analyze toolkit text) form := by
  intro claimed
  have keepsSign := claimed .empty (ownVocabulary someBirds) .ruleBased "Some birds are not mortal."
    .existential
  rw [analyze_someBirds] at keepsSign
  have category : someBirds.category = .existential := by decide
  have mayAssert := mayAssert_mortalBirds .existential
  have asserted := (gains_translate_iff category).mpr ⟨_, isChosen_someBirds, mayAssert⟩
  exact keepsSign category mortalBirds isChosen_someBirds ⟨3, by decide, by decide, by decide⟩ _
    mayAssert.unsigned?_eq asserted

end Ergo.English
