/-!
Properties of code points, written as ascending tables of code point ranges. A table is searched
from its low end and the search stops at the first range that starts beyond the code point, so
plain letters are found at once.
-/

namespace Ergo.Text

/-- Every `step`-th code point from `first` to `last`. -/
structure Stride where
  first : Nat
  last : Nat
  step : Nat
  deriving DecidableEq, Repr

namespace Stride

def contains (stride : Stride) (code : Nat) : Bool :=
  stride.first ≤ code && code ≤ stride.last && (code - stride.first) % stride.step == 0

end Stride

/-- Inclusive ranges of code points, in ascending order. -/
abbrev Ranges := List (Nat × Nat)

def Ranges.contains : Ranges → Nat → Bool
  | [], _ => false
  | (first, last) :: later, code =>
      if code < first then false
      else if code ≤ last then true
      else Ranges.contains later code

@[simp] theorem Ranges.contains_nil (code : Nat) :
    Ranges.contains [] code = false := rfl

theorem Ranges.contains_cons (first last : Nat) (later : Ranges) (code : Nat) :
    Ranges.contains ((first, last) :: later) code =
      if code < first then false
      else if code ≤ last then true
      else Ranges.contains later code := rfl

end Ergo.Text
