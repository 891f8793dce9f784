import Ergo.English.Vocabulary

/-!
Sentences that are read again. All that a sentence adds to a vocabulary is known when it is read for
the second time, but for words between things that were not yet known at the first time.
-/

namespace Ergo.English.Vocabulary

variable {vocabulary earlier later : Vocabulary} {toolkit : Toolkit} {phrases : List String}
  {sentence : Sentence} {sentences : List Sentence} {phrase : String}

/-! ## Growth -/

/-- The later vocabulary has all that the earlier has. -/
structure Extends (later earlier : Vocabulary) : Prop where
  entities : ∀ name ∈ earlier.entities, name ∈ later.entities
  predicates : ∀ headword ∈ earlier.predicates, headword ∈ later.predicates
  relations : ∀ phrase ∈ earlier.relations, phrase ∈ later.relations

theorem Extends.refl (vocabulary : Vocabulary) : vocabulary.Extends vocabulary :=
  ⟨fun _ => id, fun _ => id, fun _ => id⟩

theorem Extends.trans {last : Vocabulary} (lastExtends : last.Extends later)
    (laterExtends : later.Extends earlier) : last.Extends earlier where
  entities name known := lastExtends.entities name (laterExtends.entities name known)
  predicates headword known := lastExtends.predicates headword (laterExtends.predicates headword known)
  relations phrase known := lastExtends.relations phrase (laterExtends.relations phrase known)

theorem extends_addNames : (vocabulary.addNames toolkit sentence).Extends vocabulary where
  entities name known := by simp [addNames, known]
  predicates headword known := by simp [addNames, known]
  relations _ := id

theorem extends_extend : (vocabulary.extend toolkit phrases sentence).Extends vocabulary where
  entities := extends_addNames.entities
  predicates := extends_addNames.predicates
  relations phrase known := by simp [extend, known]

theorem extendAll_cons :
    vocabulary.extendAll toolkit phrases (sentence :: sentences) =
      (vocabulary.extend toolkit phrases sentence).extendAll toolkit phrases sentences :=
  rfl

theorem extendAll_append (others : List Sentence) :
    vocabulary.extendAll toolkit phrases (sentences ++ others) =
      (vocabulary.extendAll toolkit phrases sentences).extendAll toolkit phrases others :=
  List.foldl_append

theorem extends_extendAll :
    (vocabulary.extendAll toolkit phrases sentences).Extends vocabulary := by
  induction sentences generalizing vocabulary with
  | nil => exact .refl vocabulary
  | cons sentence sentences induction => exact induction.trans extends_extend

/-! ## What a sentence adds -/

/-- All that a sentence adds is known, whatever links it may have. -/
structure Knows (vocabulary : Vocabulary) (toolkit : Toolkit) (phrases : List String)
    (sentence : Sentence) : Prop where
  namedEntities : ∀ name ∈ namedEntityNames toolkit sentence, name ∈ vocabulary.entities
  nouns : ∀ name ∈ nounNames toolkit sentence, name ∈ vocabulary.entities
  predicates : ∀ headword ∈ predicateHeadwords toolkit sentence, headword ∈ vocabulary.predicates
  chunks : ∀ phrase ∈ chunkPhrases sentence.words, phrase ∈ vocabulary.relations
  texts : ∀ phrase ∈ textPhrases phrases sentence, phrase ∈ vocabulary.relations
  membership : statesMembership sentence = true → membershipTag ∈ vocabulary.relations

theorem knows_extend :
    (vocabulary.extend toolkit phrases sentence).Knows toolkit phrases sentence where
  namedEntities name listed := by simp [extend, addNames, listed]
  nouns name listed := by simp [extend, addNames, listed]
  predicates headword listed := by simp [extend, addNames, listed]
  chunks phrase listed := by simp [extend, listed]
  texts phrase listed := by simp [extend, listed]
  membership states := by simp [extend, states]

theorem Knows.mono (knows : earlier.Knows toolkit phrases sentence)
    (extension : later.Extends earlier) : later.Knows toolkit phrases sentence where
  namedEntities name listed := extension.entities name (knows.namedEntities name listed)
  nouns name listed := extension.entities name (knows.nouns name listed)
  predicates headword listed := extension.predicates headword (knows.predicates headword listed)
  chunks phrase listed := extension.relations phrase (knows.chunks phrase listed)
  texts phrase listed := extension.relations phrase (knows.texts phrase listed)
  membership states := extension.relations _ (knows.membership states)

theorem knows_of_mem_extendAll (member : sentence ∈ sentences) :
    (vocabulary.extendAll toolkit phrases sentences).Knows toolkit phrases sentence := by
  induction sentences generalizing vocabulary with
  | nil => cases member
  | cons first rest induction =>
      rcases List.mem_cons.mp member with rfl | later
      · rw [extendAll_cons]
        exact knows_extend.mono extends_extendAll
      · exact induction later

/-! ## Reading again -/

theorem Knows.addNames_eq_self (knows : vocabulary.Knows toolkit phrases sentence) :
    vocabulary.addNames toolkit sentence = vocabulary := by
  rw [addNames, NameSet.insertAll_eq_self knows.namedEntities,
    NameSet.insertAll_eq_self knows.nouns, NameSet.insertAll_eq_self knows.predicates]

theorem Knows.extend_eq_self (knows : vocabulary.Knows toolkit phrases sentence)
    (linked : ∀ phrase ∈ vocabulary.linksOf sentence, phrase ∈ vocabulary.relations) :
    vocabulary.extend toolkit phrases sentence = vocabulary := by
  have relations : ∀ phrase ∈ chunkPhrases sentence.words ++ vocabulary.linksOf sentence ++
      textPhrases phrases sentence ++
        (if statesMembership sentence then [membershipTag] else []),
      phrase ∈ vocabulary.relations := by
    simp only [List.forall_mem_append]
    refine ⟨⟨⟨knows.chunks, linked⟩, knows.texts⟩, ?_⟩
    split
    · next states => simpa using knows.membership states
    · simp
  rw [extend, knows.addNames_eq_self]
  exact congrArg (Vocabulary.mk _ _) (NameSet.insertAll_eq_self relations)

/-! ## Links -/

theorem isSome_entity?_of_extends (extension : later.Extends earlier) {word : Word}
    (known : (earlier.entity? word).isSome = true) : (later.entity? word).isSome = true := by
  obtain ⟨name, found⟩ := Option.isSome_iff_exists.mp known
  obtain ⟨named, listed⟩ := Option.filter_eq_some_iff.mp found
  have kept : later.entities.contains name = true :=
    NameSet.contains_iff_mem.mpr (extension.entities name (NameSet.contains_iff_mem.mp listed))
  simp [entity?, named, kept]

theorem linkAt?_mono {first second : Word → Bool}
    (imp : ∀ word, first word = true → second word = true) {words : List Word}
    (linked : linkAt? first words = some phrase) : linkAt? second words = some phrase := by
  unfold linkAt? at linked ⊢
  split at linked
  · next subject middle object later =>
      split at linked
      · next isVerb =>
          simp only [Option.ite_none_right_eq_some, Bool.and_eq_true] at linked
          simpa [isVerb, imp _ linked.1.1, imp _ linked.1.2] using linked.2
      · next noVerb =>
          rw [if_neg noVerb]
          cases later with
          | nil => cases linked
          | cons next later =>
              simp only [Option.ite_none_right_eq_some, Bool.and_eq_true] at linked
              simp [linked, imp _ linked.1.1.2, imp _ linked.1.2]
  · cases linked

theorem linkPhrases_mono {first second : Word → Bool}
    (imp : ∀ word, first word = true → second word = true) {words : List Word}
    (linked : phrase ∈ linkPhrases first words) : phrase ∈ linkPhrases second words := by
  induction words with
  | nil => cases linked
  | cons word later induction =>
      simp only [linkPhrases, List.mem_append, Option.mem_toList] at linked ⊢
      exact linked.imp (linkAt?_mono imp) induction

theorem linksOf_mono (extension : later.Extends earlier)
    (linked : phrase ∈ earlier.linksOf sentence) : phrase ∈ later.linksOf sentence :=
  linkPhrases_mono (fun _ => isSome_entity?_of_extends extension) linked

theorem mem_relations_extend (linked : phrase ∈ vocabulary.linksOf sentence) :
    phrase ∈ (vocabulary.extend toolkit phrases sentence).relations := by
  have inNamed : phrase ∈ (vocabulary.addNames toolkit sentence).linksOf sentence :=
    linksOf_mono extends_addNames linked
  simp [extend, inNamed]

theorem mem_relations_extendAll (member : sentence ∈ sentences)
    (linked : phrase ∈ vocabulary.linksOf sentence) :
    phrase ∈ (vocabulary.extendAll toolkit phrases sentences).relations := by
  induction sentences generalizing vocabulary with
  | nil => cases member
  | cons first rest induction =>
      rw [extendAll_cons]
      rcases List.mem_cons.mp member with rfl | later
      · exact extends_extendAll.relations phrase (mem_relations_extend linked)
      · exact induction later (linksOf_mono extends_extend linked)

/-- The links of all sentences are known. -/
def KnowsLinks (vocabulary : Vocabulary) (sentences : List Sentence) : Prop :=
  ∀ sentence ∈ sentences, ∀ phrase ∈ vocabulary.linksOf sentence, phrase ∈ vocabulary.relations

instance (vocabulary : Vocabulary) (sentences : List Sentence) :
    Decidable (vocabulary.KnowsLinks sentences) :=
  inferInstanceAs (Decidable (∀ sentence ∈ sentences, ∀ phrase ∈ vocabulary.linksOf sentence,
    phrase ∈ vocabulary.relations))

theorem extendAll_eq_self (knows : ∀ sentence ∈ sentences, vocabulary.Knows toolkit phrases sentence)
    (linked : vocabulary.KnowsLinks sentences) :
    vocabulary.extendAll toolkit phrases sentences = vocabulary := by
  induction sentences with
  | nil => rfl
  | cons sentence sentences induction =>
      obtain ⟨knowsFirst, knowsLater⟩ := List.forall_mem_cons.mp knows
      obtain ⟨linkedFirst, linkedLater⟩ := List.forall_mem_cons.mp linked
      rw [extendAll_cons, knowsFirst.extend_eq_self linkedFirst]
      exact induction knowsLater linkedLater

/-- Sentences that are read twice are the same as read once just if the links between all things that
they name are found at the first time. -/
theorem extendAll_append_self_iff :
    vocabulary.extendAll toolkit phrases (sentences ++ sentences) =
        vocabulary.extendAll toolkit phrases sentences ↔
      (vocabulary.extendAll toolkit phrases sentences).KnowsLinks sentences := by
  rw [extendAll_append]
  constructor
  · intro same sentence member phrase linked
    rw [← same]
    exact mem_relations_extendAll member linked
  · exact extendAll_eq_self fun sentence => knows_of_mem_extendAll

end Ergo.English.Vocabulary
