import Ergo.Argument.Compiler
import Ergo.Proofs.English.Naming
import Ergo.Proofs.Program.RoundTrip

/-!
What translations add to a program. Each translation of a triple or a sentence declares symbols over
objects under names that can be written, and its formula binds no names but those that it declares.
-/

namespace Ergo

open Ergo.English Ergo.Language

/-! ## Shapes -/

namespace Formula

/-- Every variable is bound by a quantifier around it, and no constant is. -/
def IsScoped (formula : Formula) : Prop :=
  formula.WellScoped (fun _ => True) []

variable {first second name : String}

theorem isScoped_property : (property first name).IsScoped :=
  .atom trivial (by simp [Term.WellScoped])

theorem isScoped_link : (link first second name).IsScoped :=
  .atom trivial (by simp [Term.WellScoped])

theorem isScoped_signed {negated : Bool} {formula : Formula} (isScoped : formula.IsScoped) :
    (signed negated formula).IsScoped := by
  cases negated with
  | false => exact isScoped
  | true => exact .not isScoped

theorem isScoped_inclusion : (inclusion first second).IsScoped :=
  .forAll (by simp) (by simp)
    (.implies (.atom trivial (by simp [Term.WellScoped])) (.atom trivial (by simp [Term.WellScoped])))

theorem isScoped_overlap : (overlap first second).IsScoped := by
  refine .forSome (by simp) (by simp) (.and fun part member => ?_)
  simp only [List.mem_cons, List.not_mem_nil, or_false] at member
  rcases member with rfl | rfl
  · exact .atom trivial (by simp [Term.WellScoped])
  · exact .atom trivial (by simp [Term.WellScoped])

theorem isScoped_subrelation : (subrelation first second).IsScoped :=
  .forAll (by simp) (by simp)
    (.implies (.atom trivial (by simp [Term.WellScoped])) (.atom trivial (by simp [Term.WellScoped])))

theorem isScoped_transitivity : (transitivity first).IsScoped := by
  refine .forAll (by simp) (by simp) (.implies (.and fun part member => ?_)
    (.atom trivial (by simp [Term.WellScoped])))
  simp only [List.mem_cons, List.not_mem_nil, or_false] at member
  rcases member with rfl | rfl
  · exact .atom trivial (by simp [Term.WellScoped])
  · exact .atom trivial (by simp [Term.WellScoped])

end Formula

/-! ## Declarations over objects -/

/-- The declaration can be written, and all the sorts that it names are `Object`. -/
structure Declaration.IsPlain (declaration : Declaration) : Prop where
  written : declaration.IsWritten
  overObjects : ∀ sortName ∈ declaration.namedSorts, sortName = objectSort

namespace Declaration

variable {name : String}

theorem isIdentifier_objectSort : IsIdentifier objectSort := by
  decide

theorem isPlain_object (identifier : IsIdentifier name) : (object name).IsPlain :=
  ⟨⟨identifier, by simp [object, namedSorts, sort?, domain?, isIdentifier_objectSort],
    by simp [object, domain?]⟩, by simp [object, namedSorts, sort?, domain?]⟩

theorem isPlain_objectVariable (identifier : IsIdentifier name) : (objectVariable name).IsPlain :=
  ⟨⟨identifier, by simp [objectVariable, namedSorts, sort?, domain?, isIdentifier_objectSort],
    by simp [objectVariable, domain?]⟩, by simp [objectVariable, namedSorts, sort?, domain?]⟩

theorem isPlain_property (identifier : IsIdentifier name) : (property name).IsPlain :=
  ⟨⟨identifier, by simp [property, namedSorts, sort?, domain?, isIdentifier_objectSort],
    by simp [property, domain?]⟩, by simp [property, namedSorts, sort?, domain?]⟩

theorem isPlain_link (identifier : IsIdentifier name) : (link name).IsPlain :=
  ⟨⟨identifier, by simp [link, namedSorts, sort?, domain?, isIdentifier_objectSort],
    by simp [link, domain?]⟩, by simp [link, namedSorts, sort?, domain?]⟩

end Declaration

/-! ## Translations -/

/-- The declarations are over objects, and the formula binds only names that they declare. -/
structure Translation.IsPlain (translation : Translation) : Prop where
  declarations : ∀ declaration ∈ translation.declarations, declaration.IsPlain
  isScoped : ∀ formula, translation.assertion? = some formula → formula.IsScoped
  binders : ∀ formula, translation.assertion? = some formula →
    ∀ name ∈ formula.binderOccurrences, name ∈ translation.declarations.map Declaration.name

namespace Translation

theorem isPlain_nothing : nothing.IsPlain :=
  ⟨by simp [nothing], by simp [nothing], by simp [nothing]⟩

theorem isPlain_declaring {declarations : List Declaration}
    (plain : ∀ declaration ∈ declarations, declaration.IsPlain) :
    { nothing with declarations := declarations }.IsPlain :=
  ⟨plain, by simp [nothing], by simp [nothing]⟩

theorem isPlain_asserting {declarations : List Declaration} {formula : Formula}
    (plain : ∀ declaration ∈ declarations, declaration.IsPlain) (isScoped : formula.IsScoped)
    (binders : ∀ name ∈ formula.binderOccurrences, name ∈ declarations.map Declaration.name) :
    (asserting declarations formula).IsPlain := by
  refine ⟨plain, fun stated same => ?_, fun stated same => ?_⟩
  · cases same
    exact isScoped
  · cases same
    exact binders

theorem isPlain_getD {translation? : Option Translation}
    (plain : ∀ translation, translation? = some translation → translation.IsPlain) :
    (translation?.getD nothing).IsPlain := by
  cases translation? with
  | none => exact isPlain_nothing
  | some translation => exact plain translation rfl

end Translation

open Translation Declaration

/-! ## Names in sentences -/

namespace English

theorem Sentence.isSmallName_of_nounAt? {sentence : Sentence} {place : Nat} {name : String}
    (found : sentence.nounAt? place = some name) : IsSmallName name := by
  obtain ⟨word, -, named⟩ := Option.bind_eq_some_iff.mp found
  unfold nounName? at named
  split at named
  · exact isSmallName_of_constantName named
  · cases named

namespace Vocabulary

variable {vocabulary : Vocabulary} {sentence : Sentence} {translation : Translation}

theorem isSmallName_of_entity? {word : Word} {name : String}
    (found : vocabulary.entity? word = some name) : IsSmallName name :=
  isSmallName_of_constantName (Option.filter_eq_some_iff.mp found).1

theorem isSmallName_of_entityAmong? {places : List Nat} {place : Nat} {name : String}
    (found : vocabulary.entityAmong? sentence places = some (place, name)) : IsSmallName name := by
  obtain ⟨other, -, atPlace⟩ := List.exists_of_findSome?_eq_some found
  obtain ⟨entity, isEntity, same⟩ := Option.map_eq_some_iff.mp atPlace
  cases same
  obtain ⟨word, -, named⟩ := Option.bind_eq_some_iff.mp isEntity
  exact isSmallName_of_entity? named

theorem isSmallName_of_relatedAt? {severalWords : Bool} {place : Nat} {phrase object : String}
    (isRelated : vocabulary.relatedAt? sentence severalWords place = some (phrase, object)) :
    IsSmallName object := by
  obtain ⟨found, -, related⟩ := List.exists_of_findSome?_eq_some isRelated
  obtain ⟨⟨other, entity⟩, isEntity, same⟩ := Option.map_eq_some_iff.mp related
  cases same
  exact isSmallName_of_entityAmong? isEntity

theorem isSmallName_of_negatedPredication? {subject predicate : String}
    (found : vocabulary.negatedPredication? sentence = some (subject, predicate)) :
    IsSmallName subject := by
  simp only [negatedPredication?, bind, pure, Option.bind_eq_some_iff, Option.some.injEq,
    Prod.mk.injEq] at found
  obtain ⟨place, -, ⟨subjectPlace, thing⟩, isThing, headword, -, rfl, rfl⟩ := found
  exact isSmallName_of_entityAmong? isThing

/-! ## Quantified sentences -/

theorem isPlain_universal? (translated : vocabulary.universal? sentence = some translation) :
    translation.IsPlain := by
  simp only [universal?, bind, pure, Option.bind_eq_some_iff, Option.some.injEq] at translated
  obtain ⟨_, -, ⟨_, subject⟩, -, predicate, -, first, firstNamed, second, secondNamed, rfl⟩ :=
    translated
  have firstIdentifier := isIdentifier_of_predicateName firstNamed
  have secondIdentifier := isIdentifier_of_predicateName secondNamed
  refine isPlain_asserting ?_ Formula.isScoped_inclusion ?_
  · simp [isPlain_property firstIdentifier, isPlain_property secondIdentifier,
      isPlain_objectVariable (by decide : IsIdentifier "x")]
  · simp [Formula.inclusion, Formula.binderOccurrences, objectVariable, Declaration.name]

theorem isPlain_existential? (translated : vocabulary.existential? sentence = some translation) :
    translation.IsPlain := by
  simp only [existential?, bind, pure, Option.bind_eq_some_iff, Option.some.injEq] at translated
  obtain ⟨_, -, ⟨_, subject⟩, -, predicate, -, first, firstNamed, second, secondNamed, rfl⟩ :=
    translated
  have firstIdentifier := isIdentifier_of_predicateName firstNamed
  have secondIdentifier := isIdentifier_of_predicateName secondNamed
  refine isPlain_asserting ?_ Formula.isScoped_overlap ?_
  · simp [isPlain_property firstIdentifier, isPlain_property secondIdentifier,
      isPlain_objectVariable (by decide : IsIdentifier "x")]
  · simp [Formula.overlap, Formula.binderOccurrences, objectVariable, Declaration.name]

/-! ## Predications -/

/-- The things of a complement are known by names that can be written. -/
def Complement.IsNamed : Complement → Prop
  | .predicate _ => True
  | .entity name => IsSmallName name
  | .relation _ object => IsSmallName object

theorem isNamed_of_complementAt? {place : Nat} {complement : Complement}
    (found : vocabulary.complementAt? sentence place = some complement) : complement.IsNamed := by
  unfold complementAt? at found
  simp only [Option.or_eq_some_iff, Option.map_eq_some_iff] at found
  rcases found with ⟨⟨phrase, object⟩, related, rfl⟩ | ⟨-, ⟨headword, -, rfl⟩ | ⟨-, ⟨name, isEntity, rfl⟩ |
    ⟨-, ⟨phrase, object⟩, related, rfl⟩⟩⟩
  · exact isSmallName_of_relatedAt? related
  · trivial
  · obtain ⟨word, -, named⟩ := Option.bind_eq_some_iff.mp isEntity
    exact isSmallName_of_entity? named
  · exact isSmallName_of_relatedAt? related

theorem isPlain_complementTranslation {subject : String} {negated : Bool} {complement : Complement}
    (smallSubject : IsSmallName subject) (isNamed : complement.IsNamed) :
    (complementTranslation subject negated complement).IsPlain := by
  have subjectPlain := isPlain_object smallSubject.identifier
  cases complement with
  | predicate headword =>
      rw [complementTranslation]
      split
      · next name named =>
          refine isPlain_asserting ?_ (Formula.isScoped_signed Formula.isScoped_property) ?_
          · simp [subjectPlain, isPlain_property (isIdentifier_of_predicateName named)]
          · cases negated <;>
              simp [Formula.signed, Formula.property, Formula.binderOccurrences]
      · exact isPlain_declaring (by simp [subjectPlain])
  | entity name =>
      exact isPlain_declaring (by simp [subjectPlain, isPlain_object (IsSmallName.identifier isNamed)])
  | relation phrase object =>
      rw [complementTranslation]
      split
      · next name named =>
          refine isPlain_asserting ?_ (Formula.isScoped_signed Formula.isScoped_link) ?_
          · simp [subjectPlain, isPlain_object (IsSmallName.identifier isNamed),
              isPlain_link (isIdentifier_of_relationName named)]
          · cases negated <;> simp [Formula.signed, Formula.link, Formula.binderOccurrences]
      · exact isPlain_declaring (by simp [subjectPlain])

theorem isPlain_predication? (translated : vocabulary.predication? sentence = some translation) :
    translation.IsPlain := by
  simp only [predication?, bind, pure, Option.bind_eq_some_iff, Option.some.injEq] at translated
  obtain ⟨_, -, ⟨_, subject⟩, isThing, ⟨place, complement⟩, found, rfl⟩ := translated
  obtain ⟨other, -, atPlace⟩ := List.exists_of_findSome?_eq_some found
  obtain ⟨same, isComplement, placed⟩ := Option.map_eq_some_iff.mp atPlace
  cases placed
  exact isPlain_complementTranslation (isSmallName_of_entityAmong? isThing)
    (isNamed_of_complementAt? isComplement)

/-! ## Implications -/

theorem isPlain_implication? (translated : vocabulary.implication? sentence = some translation) :
    translation.IsPlain := by
  simp only [implication?, bind, pure, Option.bind_eq_some_iff, Option.some.injEq] at translated
  obtain ⟨_, -, _, -, phrase, -, _, -, name, named, rfl⟩ := translated
  refine isPlain_asserting ?_ Formula.isScoped_transitivity ?_
  · simp [isPlain_link (isIdentifier_of_relationName named),
      isPlain_objectVariable (by decide : IsIdentifier "x"),
      isPlain_objectVariable (by decide : IsIdentifier "y"),
      isPlain_objectVariable (by decide : IsIdentifier "z")]
  · simp [Formula.transitivity, Formula.binderOccurrences, objectVariable, Declaration.name]

/-! ## Negations -/

theorem isPlain_negationFallback?
    (translated : vocabulary.negationFallback? sentence = some translation) :
    translation.IsPlain := by
  simp only [negationFallback?, bind, pure, Option.bind_eq_some_iff, Option.some.injEq] at translated
  obtain ⟨⟨subject, predicate⟩, found, name, named, rfl⟩ := translated
  refine isPlain_asserting ?_ (.not Formula.isScoped_property) ?_
  · simp [isPlain_object (isSmallName_of_negatedPredication? found).identifier,
      isPlain_property (isIdentifier_of_predicateName named)]
  · simp [Formula.property, Formula.binderOccurrences]

theorem isPlain_neitherOf? {first second : String} (firstSmall : IsSmallName first)
    (secondSmall : IsSmallName second)
    (translated : vocabulary.neitherOf? sentence first second = some translation) :
    translation.IsPlain := by
  simp only [neitherOf?, bind, pure, Option.bind_eq_some_iff, Option.some.injEq] at translated
  obtain ⟨headword, -, name, named, rfl⟩ := translated
  refine isPlain_asserting ?_ (.and fun part member => ?_) ?_
  · simp [isPlain_object firstSmall.identifier, isPlain_object secondSmall.identifier,
      isPlain_property (isIdentifier_of_predicateName named)]
  · simp only [List.mem_cons, List.not_mem_nil, or_false] at member
    rcases member with rfl | rfl
    · exact .not Formula.isScoped_property
    · exact .not Formula.isScoped_property
  · simp [Formula.property, Formula.binderOccurrences]

/-- The things of a negated part are known by names that can be written. -/
def NegatedPart.IsNamed : NegatedPart → Prop
  | .predicate _ subject? => ∀ subject ∈ subject?, IsSmallName subject
  | .entity _ => True
  | .relation subject _ object => IsSmallName subject ∧ IsSmallName object

theorem isNamed_of_negatedPart? {index : Nat} {next : Word} {part : NegatedPart}
    (found : sentence.negatedPart? index next = some part) : NegatedPart.IsNamed part := by
  unfold Sentence.negatedPart? at found
  split at found
  · next related isRelation =>
      cases found
      simp only [Sentence.negatedRelation?, bind, pure] at isRelation
      split at isRelation
      · simp only [Option.bind_eq_some_iff, Option.some.injEq] at isRelation
        obtain ⟨place, -, subject, isSubject, object, isObject, rfl⟩ := isRelation
        exact ⟨Sentence.isSmallName_of_nounAt? isSubject, Sentence.isSmallName_of_nounAt? isObject⟩
      · cases isRelation
  · split at found
    · cases found
      intro subject isSubject
      obtain ⟨place, -, isNoun⟩ := List.exists_of_findSome?_eq_some isSubject
      exact Sentence.isSmallName_of_nounAt? isNoun
    · split at found
      · cases found
        trivial
      · cases found

theorem isPlain_negatedPart? {part : NegatedPart} (isNamed : NegatedPart.IsNamed part)
    (translated : vocabulary.negatedPart? part = some translation) : translation.IsPlain := by
  unfold negatedPart? at translated
  split at translated
  · next headword subject =>
      simp only [bind, pure] at translated
      split at translated
      · obtain ⟨name, named, same⟩ := Option.bind_eq_some_iff.mp translated
        cases same
        refine isPlain_asserting ?_ (.not Formula.isScoped_property) ?_
        · simp [isPlain_object (isNamed subject rfl).identifier,
            isPlain_property (isIdentifier_of_predicateName named)]
        · simp [Formula.property, Formula.binderOccurrences]
      · cases translated
  · next subject tag object =>
      simp only [bind, pure, Option.bind_eq_some_iff, Option.some.injEq] at translated
      obtain ⟨name, named, rfl⟩ := translated
      refine isPlain_asserting ?_ (.not Formula.isScoped_link) ?_
      · simp [isPlain_object isNamed.1.identifier, isPlain_object isNamed.2.identifier,
          isPlain_link (isIdentifier_of_relationName named)]
      · simp [Formula.link, Formula.binderOccurrences]
  · cases translated

theorem isPlain_negation? (translated : vocabulary.negation? sentence = some translation) :
    translation.IsPlain := by
  unfold negation? at translated
  dsimp only at translated
  split at translated
  · split at translated
    · next first second isPair =>
        obtain ⟨⟨neither, nor⟩, -, named⟩ := Option.bind_eq_some_iff.mp isPair
        simp only [Sentence.jointNames?, bind, pure, Option.bind_eq_some_iff, Option.some.injEq,
          Prod.mk.injEq] at named
        obtain ⟨subject, isFirst, other, isSecond, rfl, rfl⟩ := named
        obtain ⟨_, -, firstNoun⟩ := List.exists_of_findSome?_eq_some isFirst
        obtain ⟨_, -, secondNoun⟩ := List.exists_of_findSome?_eq_some isSecond
        exact isPlain_neitherOf? (Sentence.isSmallName_of_nounAt? firstNoun)
          (Sentence.isSmallName_of_nounAt? secondNoun) translated
    · exact isPlain_negationFallback? translated
  · rcases Option.or_eq_some_iff.mp translated with ofPart | ⟨-, fallback⟩
    · obtain ⟨part, isPart, partTranslated⟩ := Option.bind_eq_some_iff.mp ofPart
      simp only [Sentence.negation, bind, Option.bind_eq_some_iff] at isPart
      obtain ⟨index, -, next, -, isNegated⟩ := isPart
      exact isPlain_negatedPart? (isNamed_of_negatedPart? isNegated) partTranslated
    · exact isPlain_negationFallback? fallback

/-! ## Sentences and conclusions -/

theorem isPlain_translate (vocabulary : Vocabulary) (sentence : Sentence) :
    (vocabulary.translate sentence).IsPlain := by
  rw [translate]
  cases sentence.category with
  | universal => exact isPlain_getD fun _ => isPlain_universal?
  | existential => exact isPlain_getD fun _ => isPlain_existential?
  | predication => exact isPlain_getD fun _ => isPlain_predication?
  | implication => exact isPlain_getD fun _ => isPlain_implication?
  | negation => exact isPlain_getD fun _ => isPlain_negation?
  | unclassified => exact isPlain_nothing

theorem isScoped_of_conclusionAt? {subject : String} {place : Nat} {formula : Formula}
    (concluded : vocabulary.conclusionAt? sentence subject place = some formula) :
    formula.IsScoped ∧ formula.binderOccurrences = [] := by
  simp only [conclusionAt?, bind, pure, Option.or_eq_some_iff, Option.bind_eq_some_iff,
    Option.some.injEq] at concluded
  rcases concluded with (⟨_, -, _, -, rfl⟩ | ⟨-, _, -, _, -, rfl⟩) | ⟨-, _, -, _, -, rfl⟩
  · exact ⟨Formula.isScoped_link, rfl⟩
  · exact ⟨Formula.isScoped_property, rfl⟩
  · exact ⟨Formula.isScoped_link, rfl⟩

/-- A conclusion is about things, and binds nothing. -/
theorem isScoped_of_conclusion? {formula : Formula}
    (concluded : vocabulary.conclusion? sentence = some formula) :
    formula.IsScoped ∧ formula.binderOccurrences = [] := by
  unfold conclusion? at concluded
  split at concluded
  · obtain ⟨name, -, rfl⟩ := Option.map_eq_some_iff.mp concluded
    exact ⟨.not Formula.isScoped_property, rfl⟩
  · simp only [bind, Option.bind_eq_some_iff] at concluded
    obtain ⟨_, -, ⟨_, subject⟩, -, concludedAfter⟩ := concluded
    obtain ⟨place, -, concludedAt⟩ := List.exists_of_findSome?_eq_some concludedAfter
    exact isScoped_of_conclusionAt? concludedAt

/-! ## Vocabularies -/

theorem isSmallName_of_mem_extend {toolkit : Toolkit} {phrases : List String} {name : String}
    (earlier : ∀ name ∈ vocabulary.entities, IsSmallName name)
    (member : name ∈ (vocabulary.extend toolkit phrases sentence).entities) : IsSmallName name := by
  simp only [extend, addNames, NameSet.mem_insertAll] at member
  rcases member with (known | named) | noun
  · exact earlier name known
  · obtain ⟨text, -, kept⟩ := List.mem_filterMap.mp named
    split at kept
    · cases kept
    · exact isSmallName_of_constantName kept
  · obtain ⟨word, -, kept⟩ := List.mem_filterMap.mp noun
    split at kept
    · exact isSmallName_of_constantName kept
    · cases kept

theorem isSmallName_of_mem_extendAll {toolkit : Toolkit} {phrases : List String}
    {sentences : List Sentence} {name : String}
    (earlier : ∀ name ∈ vocabulary.entities, IsSmallName name)
    (member : name ∈ (vocabulary.extendAll toolkit phrases sentences).entities) :
    IsSmallName name := by
  unfold extendAll at member
  induction sentences generalizing vocabulary with
  | nil => exact earlier name member
  | cons sentence sentences induction =>
      exact induction (fun name known => isSmallName_of_mem_extend earlier known) member

end Vocabulary

theorem Triple.isPlain_translate (triple : Triple) : triple.translate.IsPlain := by
  have equal : (Declaration.link "Equal").IsPlain := isPlain_link (by decide)
  unfold Triple.translate
  split
  · exact isPlain_asserting (by simpa using equal) Formula.isScoped_link
      (by simp [Formula.link, Formula.binderOccurrences])
  · exact isPlain_asserting (by simpa using equal) (.not Formula.isScoped_link)
      (by simp [Formula.link, Formula.binderOccurrences])
  · split
    · next first second firstNamed secondNamed =>
        refine isPlain_asserting ?_ Formula.isScoped_inclusion ?_
        · simp [isPlain_property (isIdentifier_of_predicateName firstNamed),
            isPlain_property (isIdentifier_of_predicateName secondNamed),
            isPlain_objectVariable (by decide : IsIdentifier "x")]
        · simp [Formula.inclusion, Formula.binderOccurrences, objectVariable, Declaration.name]
    · exact isPlain_nothing
  · split
    · next name named =>
        exact isPlain_asserting (by simpa using isPlain_link (isIdentifier_of_relationName named))
          Formula.isScoped_link (by simp [Formula.link, Formula.binderOccurrences])
    · exact isPlain_nothing

end English

namespace Argument.Compiler

theorem isSmallName_of_mem_vocabularyOf {compiler : Compiler} {sentences : List Sentence}
    {name : String} (member : name ∈ (compiler.vocabularyOf sentences).entities) :
    IsSmallName name := by
  refine Vocabulary.isSmallName_of_mem_extendAll (fun other none => ?_) member
  exact absurd none (NameSet.not_mem_empty other)

theorem isPlain_vocabularyDeclarations {vocabulary : Vocabulary}
    (small : ∀ name ∈ vocabulary.entities, IsSmallName name) {declaration : Declaration}
    (listed : declaration ∈ vocabularyDeclarations vocabulary) : declaration.IsPlain := by
  simp only [vocabularyDeclarations, List.mem_append, List.mem_map, List.mem_filterMap] at listed
  rcases listed with (⟨name, known, rfl⟩ | ⟨name, ⟨_, -, named⟩, rfl⟩) | ⟨name, ⟨_, -, named⟩, rfl⟩
  · exact isPlain_object (small name known).identifier
  · exact isPlain_property (isIdentifier_of_predicateName named)
  · exact isPlain_link (isIdentifier_of_relationName named)

end Argument.Compiler

end Ergo
