import Ergo.English.Headword
import Ergo.English.NamedEntity
import Ergo.English.Tokens

/-!
What the analysis of a sentence relies on: tokens, parts of speech, dictionary forms, named
entities and stopwords. Any part may be missing or fail.
-/

namespace Ergo.English

inductive ToolkitError
  | unavailable (reason : String)
  | failed (reason : String)
  deriving DecidableEq, Repr

def ToolkitError.message : ToolkitError → String
  | .unavailable reason => s!"NLP capability unavailable: {reason}"
  | .failed reason => s!"NLP processing failed: {reason}"

structure Toolkit where
  tokenize : String → Except ToolkitError (List String)
  tag : List String → Except ToolkitError (List TaggedToken)
  headword : PartOfSpeech → String → String
  namedEntities : List TaggedToken → Except ToolkitError (List NamedEntity)
  isStopword : String → Bool

namespace Toolkit

def ruleBased : Toolkit :=
  { tokenize := fun text => .ok (English.tokenize text)
    tag := fun tokens => .ok (tagTokens tokens)
    headword := English.headword
    namedEntities := fun tokens => .ok (NamedEntity.collect tokens)
    isStopword := Lexicon.isStopword }

/-- A toolkit that finds nothing and leaves words as they are. -/
def unavailable (reason : String) : Toolkit :=
  { tokenize := fun _ => .error (.unavailable reason)
    tag := fun _ => .error (.unavailable reason)
    headword := fun _ text => text
    namedEntities := fun _ => .error (.unavailable reason)
    isStopword := fun _ => false }

/-- The toolkit with a tagger that always fails. -/
def withoutTags (toolkit : Toolkit) (reason : String) : Toolkit :=
  { toolkit with tag := fun _ => .error (.failed reason) }

/-- The toolkit with a search for named entities that always fails. -/
def withoutNamedEntities (toolkit : Toolkit) (reason : String) : Toolkit :=
  { toolkit with namedEntities := fun _ => .error (.failed reason) }

end Toolkit

end Ergo.English
