/-!
Words with a fixed meaning, which can name neither terms nor variables.
-/

namespace Ergo.Language

inductive Keyword
  | conjunction
  | disjunction
  | negation
  | implication
  | universal
  | existential
  | truth
  | falsity
  deriving DecidableEq, Repr

namespace Keyword

def text : Keyword → String
  | .conjunction => "And"
  | .disjunction => "Or"
  | .negation => "Not"
  | .implication => "Implies"
  | .universal => "ForAll"
  | .existential => "Exists"
  | .truth => "True"
  | .falsity => "False"

def all : List Keyword :=
  [.conjunction, .disjunction, .negation, .implication, .universal, .existential, .truth,
    .falsity]

def ofText? (word : String) : Option Keyword :=
  all.find? fun keyword => keyword.text == word

theorem ofText?_sound {word : String} {keyword : Keyword} (found : ofText? word = some keyword) :
    keyword.text = word := by
  simpa using List.find?_some found

@[simp] theorem ofText?_text (keyword : Keyword) : ofText? keyword.text = some keyword := by
  cases keyword <;> decide

end Keyword

def isReserved (word : String) : Bool :=
  (Keyword.ofText? word).isSome

end Ergo.Language
