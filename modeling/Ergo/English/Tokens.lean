import Ergo.Text.Alphanumeric
import Ergo.Text.Words

/-!
Words and punctuation of an English text. A word starts with a letter or digit and goes on with
letters, digits, apostrophes and hyphens; each sign of ASCII punctuation outside a word is a
token of its own, and all else separates.
-/

namespace Ergo.English

open Ergo.Text

/-- Whether a character joins the parts of a word. -/
def isJoint (char : Char) : Bool :=
  char == '\'' || char == '-'

/-- The open word as a token, without the apostrophe or hyphen at its end. Its characters are
held in reverse. -/
def closeWord : List Char → List (List Char)
  | [] => []
  | [char] => [[char]]
  | last :: before => [if isJoint last then before.reverse else (last :: before).reverse]

/-- The tokens of a text, where `word` is the open word, reversed. -/
def tokensFrom (word : List Char) : List Char → List (List Char)
  | [] => closeWord word
  | char :: rest =>
      if isAlphanumeric char || (isJoint char && !word.isEmpty) then tokensFrom (char :: word) rest
      else
        closeWord word ++ (if isPunctuation char then [[char]] else []) ++ tokensFrom [] rest

def tokenize (text : String) : List String :=
  (tokensFrom [] text.toList).map String.ofList

end Ergo.English
