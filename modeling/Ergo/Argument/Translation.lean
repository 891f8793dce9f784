import Ergo.Argument.Category
import Ergo.Argument.Definitions
import Ergo.Argument.Shapes
import Ergo.English.Triple
import Ergo.English.Vocabulary

/-!
Translation of sentences into formulas. A sentence is translated as its category says, over the
vocabulary of the whole argument; a conclusion is translated on its own rules.
-/

namespace Ergo.English

namespace Vocabulary

/-! ## Known words in a sentence -/

/-- The first thing known at one of the places, with its place. -/
def entityAmong? (vocabulary : Vocabulary) (sentence : Sentence) (places : List Nat) :
    Option (Nat × String) :=
  places.findSome? fun place =>
    (sentence.words[place]?.bind vocabulary.entity?).map (place, ·)

def predicateAmong? (vocabulary : Vocabulary) (sentence : Sentence) (places : List Nat) :
    Option String :=
  places.findSome? fun place => sentence.words[place]?.bind vocabulary.predicate?

/-- The phrase of most words at a place that a known thing follows, with that thing. -/
def relatedAt? (vocabulary : Vocabulary) (sentence : Sentence) (severalWords : Bool)
    (place : Nat) : Option (String × String) :=
  let found := (vocabulary.phrasesAt sentence place).filter fun found =>
    !severalWords || found.span > 1
  found.findSome? fun found =>
    (vocabulary.entityAmong? sentence (sentence.onwards (place + found.span))).map
      fun (_, object) => (found.phrase, object)

/-- The first thing before the first negation, and the first predicate after it. -/
def negatedPredication? (vocabulary : Vocabulary) (sentence : Sentence) :
    Option (String × String) := do
  let place ← sentence.negation?
  let (_, subject) ← vocabulary.entityAmong? sentence (Sentence.span 0 place)
  let predicate ← vocabulary.predicateAmong? sentence (sentence.onwards (place + 1))
  return (subject, predicate)

/-! ## Quantified sentences -/

/-- The place where the predicate of a universal sentence is looked for first. -/
def universalStart (sentence : Sentence) (subjectPlace : Nat) : Nat :=
  match sentence.copula? with
  | some copula =>
      if 0 < copula && copula + 1 < sentence.length then copula + 1 else subjectPlace + 1
  | none => subjectPlace + 1

def universal? (vocabulary : Vocabulary) (sentence : Sentence) : Option Translation := do
  let quantifier ← sentence.find? Sentence.universalWords
  let (place, subject) ←
    vocabulary.entityAmong? sentence (sentence.onwards (quantifier + 1))
  let predicate ← vocabulary.predicateAmong? sentence
    (sentence.onwards (universalStart sentence place))
  let first ← predicateName subject
  let second ← predicateName predicate
  return .asserting [.property first, .property second, .objectVariable "x"]
    (.inclusion first second)

/-- Some of the subject have the predicate, which may stand anywhere but on the quantifier. -/
def existential? (vocabulary : Vocabulary) (sentence : Sentence) : Option Translation := do
  let quantifier ← sentence.find? ["some", "exists", "there"]
  let (_, subject) ← vocabulary.entityAmong? sentence (sentence.onwards (quantifier + 1))
  let predicate ← vocabulary.predicateAmong? sentence
    ((sentence.onwards 0).filter (· != quantifier))
  let first ← predicateName subject
  let second ← predicateName predicate
  return .asserting [.property first, .property second, .objectVariable "x"]
    (.overlap first second)

/-! ## Predications -/

/-- What a copula says of its subject. -/
inductive Complement
  | predicate (headword : String)
  | entity (name : String)
  | relation (phrase object : String)
  deriving DecidableEq, Repr

/-- The complement that starts at a place: a phrase of several words, a predicate, a thing, or a
phrase of one word. -/
def complementAt? (vocabulary : Vocabulary) (sentence : Sentence) (place : Nat) :
    Option Complement :=
  let word? := sentence.words[place]?
  let related? := fun severalWords =>
    (vocabulary.relatedAt? sentence severalWords place).map fun (phrase, object) =>
      Complement.relation phrase object
  (related? true).or <|
    ((word?.bind vocabulary.predicate?).map .predicate).or <|
      ((word?.bind vocabulary.entity?).map .entity).or (related? false)

/-- The first complement from a place on, with its own place. -/
def complementFrom? (vocabulary : Vocabulary) (sentence : Sentence) (start : Nat) :
    Option (Nat × Complement) :=
  (sentence.onwards start).findSome? fun place =>
    (vocabulary.complementAt? sentence place).map (place, ·)

/-- The translation of a subject with its complement. A thing that is only mentioned is declared
and nothing is said of it. -/
def complementTranslation (subject : String) (negated : Bool) : Complement → Translation
  | .predicate headword =>
      match predicateName headword with
      | some name =>
          .asserting [.object subject, .property name]
            (.signed negated (.property name subject))
      | none => { Translation.nothing with declarations := [.object subject] }
  | .relation phrase object =>
      match relationName phrase with
      | some name =>
          .asserting [.object subject, .object object, .link name]
            (.signed negated (.link name subject object))
      | none => { Translation.nothing with declarations := [.object subject] }
  | .entity name =>
      { Translation.nothing with declarations := [.object subject, .object name] }

/-- The nearest thing before the copula has the first complement after it, unless a negation
stands between copula and complement. -/
def predication? (vocabulary : Vocabulary) (sentence : Sentence) : Option Translation := do
  let copula ← sentence.copula?
  let (_, subject) ← vocabulary.entityAmong? sentence (Sentence.backwards copula)
  let (place, complement) ← vocabulary.complementFrom? sentence (copula + 1)
  let negated := (Sentence.span (copula + 1) place).any sentence.negatedAt
  return complementTranslation subject negated complement

/-! ## Implications -/

/-- The phrases of one word at the places, at most one at each. -/
def singleWordPhrases (vocabulary : Vocabulary) (sentence : Sentence) (places : List Nat) :
    List String :=
  places.filterMap fun place =>
    ((vocabulary.phrasesAt sentence place).find? fun found => found.span == 1).map
      PhraseMatch.phrase

/-- A relation named on both sides of `if … then …` is transitive. -/
def implication? (vocabulary : Vocabulary) (sentence : Sentence) : Option Translation := do
  let condition ← sentence.find? ["if"]
  let consequence ← (sentence.onwards (condition + 1)).find? fun place =>
    sentence.form place == "then"
  let phrase ← (vocabulary.singleWordPhrases sentence
    (Sentence.span (condition + 1) consequence)).head?
  let _ ← (vocabulary.singleWordPhrases sentence (sentence.onwards (consequence + 1))).head?
  let name ← relationName phrase
  return .asserting
    [.link name, .objectVariable "x", .objectVariable "y", .objectVariable "z"]
    (.transitivity name)

/-! ## Negations -/

/-- The form of a negation that the vocabulary need not know more of. -/
def negationFallback? (vocabulary : Vocabulary) (sentence : Sentence) : Option Translation := do
  let (subject, predicate) ← vocabulary.negatedPredication? sentence
  let name ← predicateName predicate
  return .asserting [.object subject, .property name] (.not (.property name subject))

def beForms : List String := [
  "is", "are", "be", "been", "was", "were"]

/-- Neither of two things has the first predicate of the sentence. -/
def neitherOf? (vocabulary : Vocabulary) (sentence : Sentence) (first second : String) :
    Option Translation := do
  let headword ← sentence.words.findSome? fun word =>
    if word.part.isPredicative && !beForms.contains word.form then vocabulary.predicate? word
    else none
  let name ← predicateName headword
  return .asserting [.property name, .object first, .object second]
    (.and [.not (.property name first), .not (.property name second)])

def negatedPart? (vocabulary : Vocabulary) : NegatedPart → Option Translation
  | .predicate headword (some subject) => do
      let name ← if vocabulary.predicates.contains headword then predicateName headword else none
      return .asserting [.object subject, .property name] (.not (.property name subject))
  | .relation subject tag object => do
      let name ← relationName tag
      return .asserting [.object subject, .object object, .link name]
        (.not (.link name subject object))
  | _ => none

def negation? (vocabulary : Vocabulary) (sentence : Sentence) : Option Translation :=
  let negation := sentence.negation
  if negation.isJoint then
    match negation.pair? with
    | some (first, second) => vocabulary.neitherOf? sentence first second
    | none => vocabulary.negationFallback? sentence
  else
    (negation.part?.bind vocabulary.negatedPart?).or (vocabulary.negationFallback? sentence)

/-! ## Sentences and conclusions -/

def translate (vocabulary : Vocabulary) (sentence : Sentence) : Translation :=
  let translation? :=
    match sentence.category with
    | .universal => vocabulary.universal? sentence
    | .existential => vocabulary.existential? sentence
    | .predication => vocabulary.predication? sentence
    | .implication => vocabulary.implication? sentence
    | .negation => vocabulary.negation? sentence
    | .unclassified => none
  translation?.getD .nothing

def conclusionAt? (vocabulary : Vocabulary) (sentence : Sentence) (subject : String)
    (place : Nat) : Option Formula :=
  let related? := fun severalWords => do
    let (phrase, object) ← vocabulary.relatedAt? sentence severalWords place
    return Formula.link (← relationName phrase) subject object
  let predicate? := do
    let headword ← sentence.words[place]?.bind vocabulary.predicate?
    return Formula.property (← predicateName headword) subject
  ((related? true).or predicate?).or (related? false)

/-- The formula of a conclusion: the negated form if it has one, else what follows the copula. -/
def conclusion? (vocabulary : Vocabulary) (sentence : Sentence) : Option Formula :=
  match vocabulary.negatedPredication? sentence with
  | some (subject, predicate) =>
      (predicateName predicate).map fun name => .not (.property name subject)
  | none => do
      let copula ← sentence.copula?
      let (_, subject) ← vocabulary.entityAmong? sentence (Sentence.backwards copula)
      (sentence.onwards (copula + 1)).findSome? (vocabulary.conclusionAt? sentence subject)

end Vocabulary

def Triple.translate (triple : Triple) : Translation :=
  match triple.kind with
  | .equal => .asserting [.link "Equal"] (.link "Equal" triple.subject triple.object)
  | .notEqual => .asserting [.link "Equal"] (.not (.link "Equal" triple.subject triple.object))
  | .subsetOf =>
      match predicateName triple.subject, predicateName triple.object with
      | some first, some second =>
          .asserting [.property first, .property second, .objectVariable "x"]
            (.inclusion first second)
      | _, _ => .nothing
  | kind =>
      match relationName kind.tag with
      | some name => .asserting [.link name] (.link name triple.subject triple.object)
      | none => .nothing

end Ergo.English
