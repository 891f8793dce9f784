import Ergo.English.Naming
import Ergo.English.Sentence

/-!
What a negation in a sentence applies to. The first negation that has a word on both sides decides,
unless the sentence has the form `neither … nor …`.
-/

namespace Ergo.English

/-- What a single negation applies to. Things are known by their names. -/
inductive NegatedPart
  | predicate (headword : String) (subject? : Option String)
  | entity (name? : Option String)
  | relation (subject tag object : String)
  deriving DecidableEq, Repr

structure Negation where
  /-- Whether the sentence has any negation. -/
  present : Bool
  part? : Option NegatedPart
  /-- Whether the sentence has the form `neither … nor …`. -/
  isJoint : Bool
  /-- The two things that `neither … nor …` names. -/
  pair? : Option (String × String)
  deriving DecidableEq, Repr

namespace Sentence

def nounName? (word : Word) : Option String :=
  if word.part.isNoun then constantName word.headword else none

def nounAt? (sentence : Sentence) (index : Nat) : Option String :=
  sentence.words[index]?.bind nounName?

/-- Adjectives that relate things when `to` follows. -/
def linkWords : List String := [
  "related", "connected", "linked"]

/-- Position of the subject of a negated copula, where `index` is that of the negation. -/
def negatedSubject? (sentence : Sentence) (index : Nat) : Option Nat :=
  if index > 1 && copulas.contains (sentence.form (index - 1)) then some (index - 2)
  else if ["isn't", "aren't"].contains (sentence.form index) then some (index - 1)
  else none

/-- The relation that the negation at a position applies to. -/
def negatedRelation? (sentence : Sentence) (index : Nat) : Option NegatedPart := do
  let word := sentence.form (index + 1)
  if linkWords.contains word && sentence.form (index + 2) == "to" then
    let subject ← sentence.nounAt? (← sentence.negatedSubject? index)
    let object ← sentence.nounAt? (index + 3)
    return .relation subject (word ++ "_to") object
  else none

/-- What the negation before `next` applies to, where `index` is the position of the negation. -/
def negatedPart? (sentence : Sentence) (index : Nat) (next : Word) : Option NegatedPart :=
  match sentence.negatedRelation? index with
  | some part => some part
  | none =>
      if next.part.isPredicative then
        some (.predicate next.headword ((backwards index).findSome? sentence.nounAt?))
      else if next.part.isNoun then some (.entity (nounName? next))
      else none

/-- Position of the first negation that has a word on both sides. -/
def innerNegation? (sentence : Sentence) : Option Nat :=
  (span 1 (sentence.length - 1)).find? sentence.negatedAt

/-- The names after `neither` and after `nor`, where these are the positions of the two words. -/
def jointNames? (sentence : Sentence) (neither nor : Nat) : Option (String × String) := do
  let first ← (span (neither + 1) nor).findSome? sentence.nounAt?
  let second ← (sentence.onwards (nor + 1)).findSome? sentence.nounAt?
  return (first, second)

/-- Positions of `neither` and of a later `nor` that is not the last word. -/
def joint? (sentence : Sentence) : Option (Nat × Nat) := do
  let neither ← sentence.find? ["neither"]
  let nor ← sentence.find? ["nor"]
  if neither < nor && nor + 1 < sentence.length then some (neither, nor) else none

def negation (sentence : Sentence) : Negation :=
  { present := sentence.negation?.isSome
    part? := do
      let index ← sentence.innerNegation?
      sentence.negatedPart? index (← sentence.words[index + 1]?)
    isJoint := sentence.joint?.isSome
    pair? := sentence.joint?.bind fun (neither, nor) => sentence.jointNames? neither nor }

end Sentence

end Ergo.English
