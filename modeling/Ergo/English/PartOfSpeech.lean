import Ergo.Text.CaseMapping

/-!
Parts of speech, and the tags by which they are known.
-/

namespace Ergo.English

inductive PartOfSpeech
  | noun
  | pluralNoun
  | properNoun
  | verb
  | adjective
  | adverb
  | pronoun
  | determiner
  | preposition
  | conjunction
  | auxiliary
  | particle
  | punctuation
  | number
  | symbol
  | unknown
  deriving DecidableEq, Repr

namespace PartOfSpeech

def name : PartOfSpeech → String
  | .noun => "Noun"
  | .pluralNoun => "PluralNoun"
  | .properNoun => "ProperNoun"
  | .verb => "Verb"
  | .adjective => "Adjective"
  | .adverb => "Adverb"
  | .pronoun => "Pronoun"
  | .determiner => "Determiner"
  | .preposition => "Preposition"
  | .conjunction => "Conjunction"
  | .auxiliary => "Auxiliary"
  | .particle => "Particle"
  | .punctuation => "Punctuation"
  | .number => "Number"
  | .symbol => "Symbol"
  | .unknown => "Unknown"

def tag : PartOfSpeech → String
  | .noun => "NN"
  | .pluralNoun => "NNS"
  | .properNoun => "NNP"
  | .verb => "VB"
  | .adjective => "JJ"
  | .adverb => "RB"
  | .pronoun => "PRP"
  | .determiner => "DT"
  | .preposition => "IN"
  | .conjunction => "CC"
  | .auxiliary => "MD"
  | .particle => "RP"
  | .punctuation => "."
  | .number => "CD"
  | .symbol => "SYM"
  | .unknown => "XX"

/-- The capital tags that denote a part of speech, those of the treebank first. -/
def tags : List (PartOfSpeech × List String) := [
  (.noun, ["NN", "NOUN"]),
  (.pluralNoun, ["NNS"]),
  (.properNoun, ["NNP", "NNPS", "PROPN"]),
  (.verb, ["VB", "VBD", "VBG", "VBN", "VBP", "VBZ", "VERB"]),
  (.adjective, ["JJ", "JJR", "JJS", "ADJ"]),
  (.adverb, ["RB", "RBR", "RBS", "ADV"]),
  (.pronoun, ["PRP", "PRP$", "WP", "WP$", "EX", "PRON"]),
  (.determiner, ["DT", "WDT", "PDT", "DET"]),
  (.preposition, ["IN", "TO", "ADP"]),
  (.conjunction, ["CC", "CCONJ", "SCONJ"]),
  (.auxiliary, ["MD", "AUX"]),
  (.particle, ["RP", "PART"]),
  (.punctuation, [".", ",", ":", "(", ")", "PUNCT"]),
  (.number, ["CD", "NUM"]),
  (.symbol, ["SYM", "$"])]

/-- The part of speech that a tag denotes, whatever the case of its letters. -/
def ofTag (text : String) : PartOfSpeech :=
  let capital := Text.upper text
  match tags.find? fun entry => entry.2.contains capital with
  | some entry => entry.1
  | none => .unknown

def isNoun : PartOfSpeech → Bool
  | .noun => true
  | .pluralNoun => true
  | .properNoun => true
  | _ => false

def isVerb : PartOfSpeech → Bool
  | .verb => true
  | _ => false

def isAdjective : PartOfSpeech → Bool
  | .adjective => true
  | _ => false

def isPredicative (part : PartOfSpeech) : Bool :=
  part.isVerb || part.isAdjective

end PartOfSpeech

end Ergo.English
