import Ergo.Argument.Pattern
import Ergo.Text.Alphanumeric
import Ergo.Text.CaseMapping
import Ergo.Text.Words

/-!
An argument as curated cases see it: its texts in small letters, and their words.
-/

namespace Ergo.Argument

open Ergo.Text

structure CaseText where
  premises : List String
  conclusion : String
  deriving DecidableEq, Repr

/-- The runs of letters, digits and apostrophes of a text. -/
def caseWords (text : String) : List String :=
  (runs (fun char => isAlphanumeric char || char == '\'') text.toList).map String.ofList

namespace CaseText

def ofArgument (premises : List String) (conclusion : String) : CaseText :=
  { premises := premises.map lower, conclusion := lower conclusion }

def premiseContains (text : CaseText) (needle : String) : Bool :=
  text.premises.any fun premise => contains premise needle

def conclusionContains (text : CaseText) (needle : String) : Bool :=
  contains text.conclusion needle

def premiseMatches (text : CaseText) (pattern : Pattern) : List (List String) :=
  text.premises.filterMap fun premise => pattern.match? (caseWords premise)

def conclusionMatch? (text : CaseText) (pattern : Pattern) : Option (List String) :=
  pattern.match? (caseWords text.conclusion)

def statesAny (text : CaseText) (pattern : Pattern) : Bool :=
  !(text.premiseMatches pattern).isEmpty

def concludes (text : CaseText) (pattern : Pattern) : Bool :=
  (text.conclusionMatch? pattern).isSome

/-- The two captures of each premise that matches a pattern which captures twice. -/
def premisePairs (text : CaseText) (pattern : Pattern) : List (String × String) :=
  (text.premiseMatches pattern).filterMap fun
    | [first, second] => some (first, second)
    | _ => none

def conclusionPair? (text : CaseText) (pattern : Pattern) : Option (String × String) :=
  match text.conclusionMatch? pattern with
  | some [first, second] => some (first, second)
  | _ => none

end CaseText

end Ergo.Argument
