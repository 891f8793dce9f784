import Ergo.Text.CaseMapping
import Ergo.Text.Words

/-!
Identifiers made from English words: small letters for things (`socrates`), a capital for predicates
(`Mortal`), capitals inside for relations (`GreaterThan`). A text without a letter or digit of ASCII
has no identifier.
-/

namespace Ergo.English

open Ergo.Text

def nameParts (text : String) : List (List Char) :=
  runs isPlain (text.toList.flatMap lowerChar)

/-- Marks a name that starts with a digit, so that it is an identifier. -/
def guardDigit : List Char → List Char
  | [] => []
  | char :: rest => if char.isDigit then '_' :: char :: rest else char :: rest

def capitalize : List Char → List Char
  | [] => []
  | char :: rest => char.toUpper :: rest

/-- The name of a thing: the parts of the text joined by underscores. -/
def constantName (text : String) : Option String :=
  match nameParts text with
  | [] => none
  | parts => some (String.ofList (guardDigit (['_'].intercalate parts)))

/-- The name of a predicate: the name of the thing with a capital. -/
def predicateName (text : String) : Option String :=
  (constantName text).map fun name => String.ofList (capitalize name.toList)

/-- The words of a phrase or tag, between white space and underscores. -/
def phraseWords (phrase : String) : List String :=
  (runs (fun char => !(isBlank char || char == '_')) phrase.toList).map String.ofList

/-- The name of a relation: the names of the words with capitals and without underscores, unless
that starts with a digit. -/
def relationName (phrase : String) : Option String :=
  let words := (phraseWords phrase).filterMap predicateName
  let letters := (words.flatMap String.toList).filter (· != '_')
  match letters with
  | [] => none
  | first :: _ => if first.isAlpha then some (String.ofList letters) else none

end Ergo.English
