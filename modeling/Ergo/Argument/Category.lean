import Ergo.English.Sentence

/-!
Categories of sentences, by the words they contain. A sentence belongs to the first category that
it fits.
-/

namespace Ergo.English

inductive Category
  | universal
  | existential
  | predication
  | implication
  | negation
  | unclassified
  deriving DecidableEq, Repr

namespace Sentence

def universalWords : List String := [
  "all", "every", "any"]

def existentialWords : List String := [
  "some", "exists"]

def isUniversal (sentence : Sentence) : Bool :=
  sentence.containsAny universalWords

def isExistential (sentence : Sentence) : Bool :=
  sentence.containsAny existentialWords || sentence.containsPair "there" "is" ||
    sentence.containsPair "there" "are"

def isImplication (sentence : Sentence) : Bool :=
  sentence.containsAny ["if"] && sentence.containsAny ["then"]

def category (sentence : Sentence) : Category :=
  if sentence.isUniversal then .universal
  else if sentence.isExistential then .existential
  else if sentence.containsAny copulas then .predication
  else if sentence.isImplication then .implication
  else if sentence.negation?.isSome then .negation
  else .unclassified

end Sentence

end Ergo.English
