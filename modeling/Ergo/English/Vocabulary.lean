import Ergo.English.Naming
import Ergo.English.Sentence
import Ergo.NameSet

/-!
The vocabulary of an argument: the things, predicates and relations that its sentences name.
Sentences only ever add to it.
-/

namespace Ergo.English

structure Vocabulary where
  /-- Names of things. -/
  entities : NameSet
  /-- Dictionary forms of verbs and adjectives. -/
  predicates : NameSet
  /-- Phrases and tags. -/
  relations : NameSet

/-- A phrase found in a sentence, and how many words it takes there. -/
structure PhraseMatch where
  phrase : String
  span : Nat
  deriving DecidableEq, Repr

namespace Vocabulary

def empty : Vocabulary :=
  { entities := .empty, predicates := .empty, relations := .empty }

/-! ## Looking up -/

def entity? (vocabulary : Vocabulary) (word : Word) : Option String :=
  (constantName word.headword).filter vocabulary.entities.contains

/-- The dictionary form of a word, if it is a known predicate. -/
def predicate? (vocabulary : Vocabulary) (word : Word) : Option String :=
  if vocabulary.predicates.contains word.headword then some word.headword else none

/-- Whether the words of a phrase open `words`. A single word is also known by its dictionary
form. -/
def opens (words : List Word) : List String → Bool
  | [form] =>
      match words with
      | [] => false
      | word :: _ => word.form == form || word.headword == form
  | forms => forms.isPrefixOf (words.map Word.form)

/-- The known phrases that start at a position, those of most words first. -/
def phrasesAt (vocabulary : Vocabulary) (sentence : Sentence) (index : Nat) : List PhraseMatch :=
  let words := sentence.words.drop index
  let found := vocabulary.relations.names.filterMap fun phrase =>
    let forms := Text.spaceFields phrase
    if opens words forms then some ⟨phrase, forms.length⟩ else none
  found.mergeSort fun first second => second.span ≤ first.span

/-! ## Adding to it -/

/-- Words that introduce things and are none themselves. -/
def quantifierWords : List String := [
  "all", "every", "some", "any"]

/-- Phrases that relate things in any sentence. -/
def knownPhrases : List String := [
  "greater than", "less than", "equal to", "parent of", "child of", "subset of", "element of",
  "member of", "belongs to", "contains", "includes", "part of", "related to", "connected to",
  "linked to"]

def membershipTag : String := "is_a"

/-- Whether a word is passed over. Names are kept, though they may look like stopwords. -/
def isSkipped (toolkit : Toolkit) (word : Word) : Bool :=
  (toolkit.isStopword word.form && word.part != .properNoun) ||
    quantifierWords.contains word.form

def namedEntityNames (toolkit : Toolkit) (sentence : Sentence) : List String :=
  (sentence.namedEntities.map fun entity => Text.lower entity.text).filterMap fun text =>
    if toolkit.isStopword text then none else constantName text

def nounNames (toolkit : Toolkit) (sentence : Sentence) : List String :=
  sentence.words.filterMap fun word =>
    if !isSkipped toolkit word && word.part.isNoun then constantName word.headword else none

def predicateHeadwords (toolkit : Toolkit) (sentence : Sentence) : List String :=
  (sentence.words.filter fun word =>
    !isSkipped toolkit word && word.part.isPredicative &&
      (predicateName word.headword).isSome).map Word.headword

/-- Whether a word between two nouns makes a phrase of the three. -/
def joinsNouns (part : PartOfSpeech) : Bool :=
  part.isPredicative || part == .preposition

/-- Phrases of a noun, a verb, adjective or preposition, and a noun. -/
def chunkPhrases : List Word → List String
  | first :: middle :: last :: later =>
      (if first.part.isNoun && last.part.isNoun && joinsNouns middle.part then
        [" ".intercalate [first.form, middle.form, last.form]]
      else []) ++ chunkPhrases (middle :: last :: later)
  | _ => []

/-- The words between a known thing that comes first and the next: a verb, or a preposition and a
determiner. -/
def linkAt? (isEntity : Word → Bool) : List Word → Option String
  | first :: middle :: last :: later =>
      if first.part.isNoun && middle.part.isVerb && last.part.isNoun then
        if isEntity first && isEntity last then some middle.form else none
      else
        match later with
        | next :: _ =>
            if first.part.isNoun && middle.part == .preposition && last.part == .determiner &&
                next.part.isNoun && isEntity first && isEntity next then
              some (middle.form ++ " " ++ last.form)
            else none
        | [] => none
  | _ => none

def linkPhrases (isEntity : Word → Bool) : List Word → List String
  | [] => []
  | word :: later =>
      (linkAt? isEntity (word :: later)).toList ++ linkPhrases isEntity later

/-- Those of the known and of the given phrases that occur in the text of a sentence. -/
def textPhrases (phrases : List String) (sentence : Sentence) : List String :=
  let text := Text.lower sentence.text
  (knownPhrases ++ phrases).filter fun phrase =>
    !phrase.isEmpty && Text.contains text phrase

def statesMembership (sentence : Sentence) : Bool :=
  sentence.neighbours.any fun pair =>
    copulas.contains pair.1.form && ["a", "an", "the"].contains pair.2.form

/-- The vocabulary with the things and predicates that a sentence names. -/
def addNames (vocabulary : Vocabulary) (toolkit : Toolkit) (sentence : Sentence) : Vocabulary :=
  { vocabulary with
    entities := (vocabulary.entities.insertAll (namedEntityNames toolkit sentence)).insertAll
      (nounNames toolkit sentence)
    predicates := vocabulary.predicates.insertAll (predicateHeadwords toolkit sentence) }

/-- The words of a sentence between two things that are known. -/
def linksOf (vocabulary : Vocabulary) (sentence : Sentence) : List String :=
  linkPhrases (fun word => (vocabulary.entity? word).isSome) sentence.words

def extend (vocabulary : Vocabulary) (toolkit : Toolkit) (phrases : List String)
    (sentence : Sentence) : Vocabulary :=
  let named := vocabulary.addNames toolkit sentence
  let membership := if statesMembership sentence then [membershipTag] else []
  { named with
    relations := vocabulary.relations.insertAll
      (chunkPhrases sentence.words ++ named.linksOf sentence ++ textPhrases phrases sentence ++
        membership) }

def extendAll (vocabulary : Vocabulary) (toolkit : Toolkit) (phrases : List String)
    (sentences : List Sentence) : Vocabulary :=
  sentences.foldl (fun vocabulary sentence => vocabulary.extend toolkit phrases sentence)
    vocabulary

end Vocabulary

end Ergo.English
