import Ergo.English.Toolkit

/-!
Sentences taken apart into words. A toolkit that fails never fails a sentence: without tokens it
has no words, without tags its words are of unknown kind, and without a search for named entities
it has none of them.
-/

namespace Ergo.English

structure Word where
  /-- The word in small letters. -/
  form : String
  part : PartOfSpeech
  headword : String
  deriving DecidableEq, Repr

structure Sentence where
  text : String
  words : List Word
  namedEntities : List NamedEntity
  deriving DecidableEq, Repr

namespace Sentence

def ofTokens (toolkit : Toolkit) (text : String) (tokens : List TaggedToken) : Sentence :=
  { text := text
    words := tokens.map fun token =>
      { form := Text.lower token.text
        part := token.part
        headword := toolkit.headword token.part token.text }
    namedEntities := (toolkit.namedEntities tokens).toOption.getD [] }

def untagged (tokens : List String) : List TaggedToken :=
  tokens.map fun token => ⟨token, .unknown⟩

/-- The words of a text as a toolkit sees them. -/
def analyze (toolkit : Toolkit) (text : String) : Sentence :=
  let tokens := (toolkit.tokenize text).toOption.getD []
  ofTokens toolkit text ((toolkit.tag tokens).toOption.getD (untagged tokens))

/-! ## Words by position -/

def length (sentence : Sentence) : Nat :=
  sentence.words.length

/-- The form of the word at a position, empty beyond the end. -/
def form (sentence : Sentence) (index : Nat) : String :=
  (sentence.words[index]?.map Word.form).getD ""

def find? (sentence : Sentence) (forms : List String) : Option Nat :=
  sentence.words.findIdx? fun word => forms.contains word.form

def containsAny (sentence : Sentence) (forms : List String) : Bool :=
  sentence.words.any fun word => forms.contains word.form

def neighbours (sentence : Sentence) : List (Word × Word) :=
  sentence.words.zip sentence.words.tail

/-- Whether `first` and `second` stand next to each other somewhere. -/
def containsPair (sentence : Sentence) (first second : String) : Bool :=
  sentence.neighbours.any fun pair => pair.1.form == first && pair.2.form == second

def headwordText (sentence : Sentence) : String :=
  " ".intercalate (sentence.words.map Word.headword)

/-! ## Positions -/

/-- The positions from `start` up to `stop`, which is left out. -/
def span (start stop : Nat) : List Nat :=
  List.range' start (stop - start)

/-- The positions before `stop`, the nearest first. -/
def backwards (stop : Nat) : List Nat :=
  (List.range stop).reverse

def onwards (sentence : Sentence) (start : Nat) : List Nat :=
  span start sentence.length

end Sentence

/-! ## Copulas and negation -/

def copulas : List String := [
  "is", "are"]

def negationWords : List String := [
  "not", "no", "never", "none", "neither", "nor", "nothing", "nowhere"]

def negativeVerbs : List String := [
  "isn't", "aren't", "wasn't", "weren't", "don't", "doesn't", "didn't", "won't", "wouldn't",
  "can't", "cannot", "couldn't"]

def isNegation (form : String) : Bool :=
  negationWords.contains form || negativeVerbs.contains form || form == "n't"

namespace Sentence

/-- Position of the first `is`, or of the first `are` if there is none. -/
def copula? (sentence : Sentence) : Option Nat :=
  (sentence.find? ["is"]).or (sentence.find? ["are"])

def negatedAt (sentence : Sentence) (index : Nat) : Bool :=
  isNegation (sentence.form index)

def negation? (sentence : Sentence) : Option Nat :=
  sentence.words.findIdx? fun word => isNegation word.form

end Sentence

end Ergo.English
