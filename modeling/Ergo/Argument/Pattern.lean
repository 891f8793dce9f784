/-!
Patterns over the words of a sentence. Each slot of a pattern takes one word; articles between the
words of a match may be left out.
-/

namespace Ergo.Argument

inductive Slot
  /-- One of the listed words. -/
  | word (options : List String)
  /-- Any word, which is captured. -/
  | any
  deriving DecidableEq, Repr

abbrev Pattern := List Slot

def articles : List String := [
  "a", "an", "the"]

namespace Slot

def accepts : Slot → String → Bool
  | .word options, text => options.contains text
  | .any, _ => true

def captured : Slot → String → List String
  | .word _, _ => []
  | .any, text => [text]

end Slot

/-- The captured words of a match of all words, if there is one. A word that the next slot accepts
fills it if the rest can then be matched; otherwise an article is left out. -/
def Pattern.match? (pattern : Pattern) : List String → Option (List String)
  | [] => if pattern.isEmpty then some [] else none
  | word :: words =>
      let filled :=
        match pattern with
        | [] => none
        | slot :: slots =>
            if slot.accepts word then (match? slots words).map (slot.captured word ++ ·) else none
      filled.or (if articles.contains word then match? pattern words else none)

end Ergo.Argument
