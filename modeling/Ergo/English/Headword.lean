import Ergo.English.Lexicon
import Ergo.English.PartOfSpeech
import Ergo.Text.Words

/-!
Dictionary forms of words. Only verbs and plural nouns differ from their small form: known forms
are looked up, others lose their ending.
-/

namespace Ergo.English

open Ergo.Text

/-- A plural ending that leaves all but its last two letters. -/
def sibilantEndings : List String := [
  "sses", "ches", "shes", "xes", "zes"]

def dropLast (word : String) (count : Nat) : String :=
  String.ofList (word.toList.take (word.toList.length - count))

def stem? (word ending : String) : Option String :=
  (dropEnding? word ending).filter fun stem => !stem.isEmpty

/-- The text before an ending, if it is longer than two bytes. -/
def longStem? (word ending : String) : Option String :=
  (dropEnding? word ending).filter fun stem => stem.utf8ByteSize > 2

def stripPlural (word : String) : String :=
  match stem? word "ies" with
  | some stem => stem ++ "y"
  | none =>
      if sibilantEndings.any (endsWith word) then dropLast word 2
      else if endsWith word "ss" then word
      else (stem? word "s").getD word

def stripInflection (word : String) : String :=
  match longStem? word "ing", longStem? word "ed" with
  | some stem, _ => stem
  | none, some stem => stem
  | none, none => stripPlural word

/-- The dictionary form of a word that is used as the given part of speech. -/
def headword (part : PartOfSpeech) (text : String) : String :=
  let word := lower text
  match part with
  | .verb => (Lexicon.verbForms.lookup word).getD (stripInflection word)
  | .pluralNoun => (Lexicon.irregularPlurals.lookup word).getD (stripPlural word)
  | _ => word

end Ergo.English
