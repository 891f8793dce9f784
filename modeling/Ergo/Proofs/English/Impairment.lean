import Ergo.Proofs.English.Rereading
import Ergo.Proofs.Lists

/-!
Toolkits that fail. What the rule-based toolkit finds with some of its parts missing, for some calls or
for all, it also finds with all of them: a sentence that is taken apart with less names fewer things
(`YieldsLess`), and what is collected from fewer things is contained in what is collected from more
(`Extends.extend`). Main statement: `extends_of_isWeaker`.
-/

namespace Ergo.English

/-! ## Parts that fail -/

/-- The one capability gives what the other gives, or fails. -/
def FallsShort {input output : Type} (weak full : input → Except ToolkitError output) : Prop :=
  ∀ given, weak given = full given ∨ ∃ error, weak given = .error error

namespace FallsShort

variable {input output : Type} {weak middle full : input → Except ToolkitError output}

theorem refl (full : input → Except ToolkitError output) : FallsShort full full :=
  fun _ => .inl rfl

theorem trans (weakShort : FallsShort weak middle) (middleShort : FallsShort middle full) :
    FallsShort weak full := by
  intro given
  rcases weakShort given with same | fails
  · rw [same]
    exact middleShort given
  · exact .inr fails

theorem toOption_cases (short : FallsShort weak full) (given : input) :
    (weak given).toOption = (full given).toOption ∨ (weak given).toOption = none := by
  rcases short given with same | ⟨error, fails⟩
  · exact .inl (by rw [same])
  · exact .inr (by rw [fails]; rfl)

end FallsShort

namespace Toolkit

/-- The toolkit is another one of which parts may fail, at any time. -/
structure IsImpaired (weak full : Toolkit) : Prop where
  tokenize : FallsShort weak.tokenize full.tokenize
  tag : FallsShort weak.tag full.tag
  namedEntities : FallsShort weak.namedEntities full.namedEntities
  headword : weak.headword = full.headword
  isStopword : weak.isStopword = full.isStopword

theorem isImpaired_withoutTags (toolkit : Toolkit) (reason : String) :
    (toolkit.withoutTags reason).IsImpaired toolkit where
  tokenize := .refl _
  tag _ := .inr ⟨_, rfl⟩
  namedEntities := .refl _
  headword := rfl
  isStopword := rfl

theorem isImpaired_withoutNamedEntities (toolkit : Toolkit) (reason : String) :
    (toolkit.withoutNamedEntities reason).IsImpaired toolkit where
  tokenize := .refl _
  tag := .refl _
  namedEntities _ := .inr ⟨_, rfl⟩
  headword := rfl
  isStopword := rfl

theorem IsImpaired.trans {weak middle full : Toolkit} (weakImpaired : weak.IsImpaired middle)
    (middleImpaired : middle.IsImpaired full) : weak.IsImpaired full where
  tokenize := weakImpaired.tokenize.trans middleImpaired.tokenize
  tag := weakImpaired.tag.trans middleImpaired.tag
  namedEntities := weakImpaired.namedEntities.trans middleImpaired.namedEntities
  headword := weakImpaired.headword.trans middleImpaired.headword
  isStopword := weakImpaired.isStopword.trans middleImpaired.isStopword

/-- Weaker than the rule-based toolkit: parts of it fail, or there is none at all. -/
inductive IsWeaker : Toolkit → Prop
  | impaired {weak : Toolkit} : weak.IsImpaired ruleBased → IsWeaker weak
  | unavailable (reason : String) : IsWeaker (unavailable reason)

end Toolkit

namespace Vocabulary

variable {weak full : Toolkit} {weakSentence sentence : Sentence} {phrases : List String}
  {earlier later : Vocabulary}

/-! ## Sentences that yield less -/

/-- Taken apart by the weak toolkit the sentence yields nothing that it does not yield by the full
one. -/
structure YieldsLess (weak full : Toolkit) (weakSentence sentence : Sentence) : Prop where
  text : weakSentence.text = sentence.text
  namedEntities : namedEntityNames weak weakSentence ⊆ namedEntityNames full sentence
  nouns : nounNames weak weakSentence ⊆ nounNames full sentence
  predicates : predicateHeadwords weak weakSentence ⊆ predicateHeadwords full sentence
  chunks : chunkPhrases weakSentence.words ⊆ chunkPhrases sentence.words
  links : ∀ isEntity, linkPhrases isEntity weakSentence.words ⊆ linkPhrases isEntity sentence.words
  membership : statesMembership weakSentence = true → statesMembership sentence = true

theorem YieldsLess.textPhrases (less : YieldsLess weak full weakSentence sentence)
    (phrases : List String) : textPhrases phrases weakSentence = textPhrases phrases sentence := by
  rw [Vocabulary.textPhrases, less.text]
  rfl

theorem Extends.addNames (extension : later.Extends earlier)
    (less : YieldsLess weak full weakSentence sentence) :
    (later.addNames full sentence).Extends (earlier.addNames weak weakSentence) where
  entities name known := by
    simp only [Vocabulary.addNames, NameSet.mem_insertAll] at known ⊢
    exact known.imp (.imp (extension.entities name) (less.namedEntities ·)) (less.nouns ·)
  predicates headword known := by
    simp only [Vocabulary.addNames, NameSet.mem_insertAll] at known ⊢
    exact known.imp (extension.predicates headword) (less.predicates ·)
  relations := extension.relations

/-- One sentence that yields less keeps a vocabulary behind another that is ahead. -/
theorem Extends.extend (extension : later.Extends earlier)
    (less : YieldsLess weak full weakSentence sentence) :
    (later.extend full phrases sentence).Extends (earlier.extend weak phrases weakSentence) where
  entities := (extension.addNames less).entities
  predicates := (extension.addNames less).predicates
  relations phrase known := by
    simp only [Vocabulary.extend, NameSet.mem_insertAll, List.mem_append] at known ⊢
    rcases known with old | ((chunk | link) | inText) | isTag
    · exact .inl (extension.relations phrase old)
    · exact .inr (.inl (.inl (.inl (less.chunks chunk))))
    · have linked := less.links _ link
      exact .inr (.inl (.inl (.inr (linksOf_mono (extension.addNames less) linked))))
    · rw [less.textPhrases] at inText
      exact .inr (.inl (.inr inText))
    · split at isTag
      · next states => exact .inr (.inr (by rwa [if_pos (less.membership states)]))
      · cases isTag

theorem Extends.extendAll {weakSentences sentences : List Sentence}
    (less : List.Forall₂ (YieldsLess weak full) weakSentences sentences)
    (extension : later.Extends earlier) :
    (later.extendAll full phrases sentences).Extends
      (earlier.extendAll weak phrases weakSentences) := by
  induction less generalizing earlier later with
  | nil => exact extension
  | cons first _ induction => exact induction (extension.extend first)

/-! ## Words of unknown kind -/

theorem nounNames_eq_nil (unknown : ∀ word ∈ sentence.words, word.part = .unknown) :
    nounNames full sentence = [] := by
  rw [nounNames, List.filterMap_eq_nil_iff]
  intro word member
  simp [unknown word member, PartOfSpeech.isNoun]

theorem predicateHeadwords_eq_nil (unknown : ∀ word ∈ sentence.words, word.part = .unknown) :
    predicateHeadwords full sentence = [] := by
  rw [predicateHeadwords, List.map_eq_nil_iff, List.filter_eq_nil_iff]
  intro word member
  simp [unknown word member, PartOfSpeech.isPredicative, PartOfSpeech.isVerb,
    PartOfSpeech.isAdjective]

theorem chunkPhrases_eq_nil {words : List Word} (unknown : ∀ word ∈ words, word.part = .unknown) :
    chunkPhrases words = [] := by
  fun_induction chunkPhrases words with
  | case1 first middle last later induction =>
      obtain ⟨here, rest⟩ := List.forall_mem_cons.mp unknown
      simp [here, PartOfSpeech.isNoun, induction rest]
  | case2 => rfl

theorem linkPhrases_eq_nil {isEntity : Word → Bool} {words : List Word}
    (unknown : ∀ word ∈ words, word.part = .unknown) : linkPhrases isEntity words = [] := by
  induction words with
  | nil => rfl
  | cons word later induction =>
      obtain ⟨here, rest⟩ := List.forall_mem_cons.mp unknown
      have noLink : linkAt? isEntity (word :: later) = none := by
        unfold linkAt?
        split
        · next first middle last others same =>
            obtain ⟨rfl, rfl⟩ := List.cons.inj same
            cases others <;> simp [here, PartOfSpeech.isNoun]
        · rfl
      rw [linkPhrases, noLink, induction rest]
      rfl

/-- Copulas and articles are known by their forms. -/
theorem statesMembership_congr {other : Sentence}
    (forms : sentence.words.map Word.form = other.words.map Word.form) :
    statesMembership sentence = statesMembership other := by
  have byForms (sentence : Sentence) : statesMembership sentence =
      ((sentence.words.map Word.form).zip (sentence.words.map Word.form).tail).any fun pair =>
        copulas.contains pair.1 && ["a", "an", "the"].contains pair.2 := by
    rw [statesMembership, Sentence.neighbours, ← List.map_tail, List.zip_map, List.any_map]
    rfl
  rw [byForms, byForms, forms]

theorem YieldsLess.of_unknown (unknown : ∀ word ∈ weakSentence.words, word.part = .unknown)
    (unnamed : weakSentence.namedEntities = []) (text : weakSentence.text = sentence.text)
    (membership : statesMembership weakSentence = true → statesMembership sentence = true) :
    YieldsLess weak full weakSentence sentence where
  text := text
  namedEntities := by simp [namedEntityNames, unnamed]
  nouns := by simp [nounNames_eq_nil unknown]
  predicates := by simp [predicateHeadwords_eq_nil unknown]
  chunks := by simp [chunkPhrases_eq_nil unknown]
  links _ := by simp [linkPhrases_eq_nil unknown]
  membership := membership

theorem YieldsLess.of_words (words : weakSentence.words = sentence.words)
    (text : weakSentence.text = sentence.text)
    (named : weakSentence.namedEntities ⊆ sentence.namedEntities)
    (stopwords : weak.isStopword = full.isStopword) :
    YieldsLess weak full weakSentence sentence where
  text := text
  namedEntities := by
    rw [namedEntityNames, namedEntityNames, stopwords]
    exact List.filterMap_subset _ (List.map_subset _ named)
  nouns := by
    simp only [nounNames, isSkipped, words, stopwords]
    exact List.Subset.refl _
  predicates := by
    simp only [predicateHeadwords, isSkipped, words, stopwords]
    exact List.Subset.refl _
  chunks := by rw [words]; exact List.Subset.refl _
  links _ := by rw [words]; exact List.Subset.refl _
  membership := by
    rw [statesMembership_congr (congrArg (List.map Word.form) words)]
    exact id

end Vocabulary

/-! ## Tokens of unknown kind -/

theorem map_text_tagFrom (opening : Bool) (tokens : List String) :
    (tagFrom opening tokens).map TaggedToken.text = tokens := by
  induction tokens generalizing opening with
  | nil => rfl
  | cons token later induction => rw [tagFrom, List.map_cons, induction]

theorem map_text_untagged (tokens : List String) :
    (Sentence.untagged tokens).map TaggedToken.text = tokens := by
  rw [Sentence.untagged, List.map_map]
  exact List.map_id tokens

theorem NamedEntity.collect_eq_nil {tokens : List TaggedToken}
    (unknown : ∀ token ∈ tokens, token.part = .unknown) : NamedEntity.collect tokens = [] := by
  rw [collect]
  induction tokens with
  | nil => rfl
  | cons token later induction =>
      obtain ⟨here, rest⟩ := List.forall_mem_cons.mp unknown
      rw [collectFrom, here, if_neg (by decide), induction rest]
      rfl

theorem part_of_mem_untagged {tokens : List String} {token : TaggedToken}
    (member : token ∈ Sentence.untagged tokens) : token.part = .unknown := by
  obtain ⟨_, -, rfl⟩ := List.mem_map.mp member
  rfl

theorem forms_ofTokens (toolkit : Toolkit) (text : String) (tokens : List TaggedToken) :
    (Sentence.ofTokens toolkit text tokens).words.map Word.form =
      (tokens.map TaggedToken.text).map Text.lower := by
  simp only [Sentence.ofTokens, List.map_map, Function.comp_def]

namespace Toolkit.IsImpaired

open Vocabulary

variable {weak : Toolkit}

/-- The tokens of a text are tagged by rule, or they are those of the text and of unknown kind, or
there are none. -/
theorem exists_tokens (impaired : weak.IsImpaired ruleBased) (text : String) :
    ∃ tokens, Sentence.analyze weak text = Sentence.ofTokens weak text tokens ∧
      (tokens = tagTokens (English.tokenize text) ∨
        tokens = Sentence.untagged (English.tokenize text) ∨ tokens = []) := by
  refine ⟨_, rfl, ?_⟩
  rcases impaired.tokenize.toOption_cases text with found | missing
  · rw [found]
    rcases impaired.tag.toOption_cases (English.tokenize text) with tagged | unknown
    · exact .inl (congrArg (Option.getD · _) tagged)
    · exact .inr (.inl (congrArg (Option.getD · _) unknown))
  · rw [missing]
    rcases impaired.tag.toOption_cases [] with tagged | unknown
    · exact .inr (.inr (congrArg (Option.getD · _) tagged))
    · exact .inr (.inr (congrArg (Option.getD · _) unknown))

theorem namedEntities_subset (impaired : weak.IsImpaired ruleBased) (tokens : List TaggedToken) :
    (weak.namedEntities tokens).toOption.getD [] ⊆ NamedEntity.collect tokens := by
  rcases impaired.namedEntities.toOption_cases tokens with found | missing
  · rw [found]
    exact List.Subset.refl _
  · rw [missing]
    exact List.nil_subset _

theorem yieldsLess_of_unknown (impaired : weak.IsImpaired ruleBased) {text : String}
    {tokens : List TaggedToken} (unknown : ∀ token ∈ tokens, token.part = .unknown)
    (membership : statesMembership (Sentence.ofTokens weak text tokens) = true →
      statesMembership (Sentence.analyze ruleBased text) = true) :
    YieldsLess weak ruleBased (Sentence.ofTokens weak text tokens)
      (Sentence.analyze ruleBased text) := by
  refine .of_unknown ?_ ?_ rfl membership
  · intro word member
    obtain ⟨token, listed, rfl⟩ := List.mem_map.mp member
    exact unknown token listed
  · have none := impaired.namedEntities_subset tokens
    rw [NamedEntity.collect_eq_nil unknown] at none
    exact List.subset_nil.mp none

theorem yieldsLess_analyze (impaired : weak.IsImpaired ruleBased) (text : String) :
    YieldsLess weak ruleBased (Sentence.analyze weak text) (Sentence.analyze ruleBased text) := by
  obtain ⟨tokens, same, tagged | untagged | missing⟩ := impaired.exists_tokens text <;> rw [same]
  · subst tagged
    refine .of_words ?_ rfl (impaired.namedEntities_subset _) impaired.isStopword
    rw [Sentence.ofTokens, impaired.headword]
    rfl
  · subst untagged
    refine impaired.yieldsLess_of_unknown (fun _ => part_of_mem_untagged) ?_
    have byRule : Sentence.analyze ruleBased text =
        Sentence.ofTokens ruleBased text (tagTokens (English.tokenize text)) := rfl
    rw [byRule, ← statesMembership_congr]
    · exact id
    · rw [forms_ofTokens, forms_ofTokens, map_text_untagged, tagTokens, map_text_tagFrom]
  · subst missing
    exact impaired.yieldsLess_of_unknown (by simp) (by intro states; cases states)

end Toolkit.IsImpaired

theorem Toolkit.yieldsLess_unavailable (reason text : String) :
    Vocabulary.YieldsLess (unavailable reason) ruleBased
      (Sentence.analyze (unavailable reason) text) (Sentence.analyze ruleBased text) :=
  .of_unknown (fun _ member => by cases member) rfl rfl fun states => by cases states

/-! ## Vocabularies of texts -/

namespace Vocabulary

/-- The vocabulary that a toolkit collects from texts. -/
def ofTexts (toolkit : Toolkit) (phrases texts : List String) : Vocabulary :=
  empty.extendAll toolkit phrases (texts.map (Sentence.analyze toolkit))

theorem yieldsLess_of_isWeaker {weak : Toolkit} (weaker : weak.IsWeaker) (text : String) :
    YieldsLess weak .ruleBased (Sentence.analyze weak text)
      (Sentence.analyze .ruleBased text) := by
  cases weaker with
  | impaired impaired => exact impaired.yieldsLess_analyze text
  | unavailable reason => exact Toolkit.yieldsLess_unavailable reason text

/-- A weaker toolkit finds nothing in texts that the rule-based toolkit does not find, and it still
finds the phrases that are looked for in the text itself. -/
theorem extends_of_isWeaker {weak : Toolkit} (weaker : weak.IsWeaker) (phrases texts : List String) :
    (ofTexts .ruleBased phrases texts).Extends (ofTexts weak phrases texts) ∧
      ∀ text ∈ texts, ∀ phrase ∈ knownPhrases ++ phrases, phrase ≠ "" →
        Text.contains (Text.lower text) phrase = true →
          phrase ∈ (ofTexts weak phrases texts).relations := by
  constructor
  · refine Extends.extendAll ?_ (.refl empty)
    rw [List.forall₂_map_left_iff, List.forall₂_map_right_iff, List.forall₂_same]
    exact fun text _ => yieldsLess_of_isWeaker weaker text
  · intro text listed phrase known nonempty inside
    have knows : (ofTexts weak phrases texts).Knows weak phrases (Sentence.analyze weak text) :=
      knows_of_mem_extendAll (List.mem_map_of_mem listed)
    refine knows.texts phrase ?_
    rw [textPhrases, List.mem_filter]
    refine ⟨known, ?_⟩
    have isText : (Sentence.analyze weak text).text = text := rfl
    rw [isText, inside, Bool.and_true, Bool.not_eq_true', ← Bool.not_eq_true, String.isEmpty_iff]
    exact nonempty

/-- With neither tags nor named entities only the phrases of the texts and memberships are left. -/
theorem childOfTom_extends :
    let weak := (Toolkit.ruleBased.withoutTags "tag").withoutNamedEntities "chunk"
    let texts := ["The cat chases Jerry.", "Jerry is the child of Tom."]
    weak.IsWeaker ∧ (ofTexts .ruleBased [] texts).Extends (ofTexts weak [] texts) ∧
      (ofTexts weak [] texts).entities.names = [] ∧
      (ofTexts weak [] texts).relations.names = ["child of", "is_a"] ∧
      "jerry" ∈ (ofTexts .ruleBased [] texts).entities := by
  intro weak texts
  have weaker : weak.IsWeaker := .impaired <|
    (Toolkit.isImpaired_withoutNamedEntities _ _).trans (Toolkit.isImpaired_withoutTags _ _)
  refine ⟨weaker, (extends_of_isWeaker weaker [] texts).1, ?_, ?_, ?_⟩
  · decide +kernel
  · decide +kernel
  · decide +kernel

end Vocabulary

end Ergo.English
