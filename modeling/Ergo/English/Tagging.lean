import Ergo.English.Lexicon
import Ergo.English.PartOfSpeech
import Ergo.Text.LetterCase
import Ergo.Text.Words

/-!
Parts of speech assigned by rule: first by the shape of a token, then by the lists of known words,
then by capitals and endings. What nothing else claims is a noun.
-/

namespace Ergo.English

open Ergo.Text

structure TaggedToken where
  text : String
  part : PartOfSpeech
  deriving DecidableEq, Repr

/-! ## Shapes -/

def isSign (token : String) : Bool :=
  match token.toList with
  | [char] => isPunctuation char
  | _ => false

/-- Digits and points, with at least one digit. -/
def isNumeral (token : String) : Bool :=
  token.toList.all (fun char => char.isDigit || char == '.') && token.toList.any Char.isDigit

/-- A capital letter of ASCII other than `I`. -/
def isInitial (token : String) : Bool :=
  match token.toList with
  | [char] => char.isUpper && char != 'I'
  | _ => false

def startsUppercase (token : String) : Bool :=
  match token.toList with
  | [] => false
  | char :: _ => isUppercase char

def followsSingular (next? : Option String) : Bool :=
  match next? with
  | some next => Lexicon.singularVerbs.contains (lower next)
  | none => false

/-! ## Endings -/

def adjectiveEndings : List String := [
  "ful", "less", "ous", "ive", "able", "ible"]

def hasAdjectiveEnding (word : String) : Bool :=
  adjectiveEndings.any (endsWith word)

def isAdverb (word : String) : Bool :=
  Lexicon.adverbs.contains word || (word.utf8ByteSize > 4 && endsWith word "ly")

def hasPluralEnding (word : String) : Bool :=
  word.utf8ByteSize > 3 && endsWith word "s" &&
    !(endsWith word "ss" || endsWith word "us" || endsWith word "is")

/-- Singular or plural, by the form of a noun and by the verb after it. -/
def nounNumber (word : String) (next? : Option String) : PartOfSpeech :=
  if (Lexicon.irregularPlurals.lookup word).isSome then .pluralNoun
  else if hasPluralEnding word && !followsSingular next? then .pluralNoun
  else .noun

/-! ## Tags -/

/-- What a small word is by the lists of known words, if it is in one of them. -/
def knownPart? (word : String) (next? : Option String) : Option PartOfSpeech :=
  if Lexicon.determiners.contains word then some .determiner
  else if Lexicon.auxiliaries.contains word then some .auxiliary
  else if (Lexicon.verbForms.lookup word).isSome then some .verb
  else if Lexicon.prepositions.contains word then some .preposition
  else if Lexicon.conjunctions.contains word then some .conjunction
  else if Lexicon.pronouns.contains word then some .pronoun
  else if isAdverb word then some .adverb
  else if Lexicon.nounsInDisguise.contains word then some (nounNumber word next?)
  else if Lexicon.adjectives.contains word then some .adjective
  else none

/-- What a token is, from its shape, its word, whether it opens its sentence, and the token after
it. A capital letter names a thing, unless it may be the article that opens a sentence. -/
def partOf (opening : Bool) (token : String) (next? : Option String) : PartOfSpeech :=
  let word := lower token
  if isSign token then .punctuation
  else if isNumeral token then .number
  else if isInitial token && (!opening || followsSingular next?) then .properNoun
  else
    match knownPart? word next? with
    | some part => part
    | none =>
        if !opening && startsUppercase token then .properNoun
        else if hasAdjectiveEnding word then .adjective
        else nounNumber word next?

/-- Tags tokens from left to right; `opening` says whether the first of them opens a sentence. -/
def tagFrom (opening : Bool) : List String → List TaggedToken
  | [] => []
  | token :: later => ⟨token, partOf opening token later.head?⟩ :: tagFrom false later

def tagTokens (tokens : List String) : List TaggedToken :=
  tagFrom true tokens

end Ergo.English
