import Ergo.Language.Token

/-!
Rational arithmetic within bounds. Numerators and denominators stay at or below `maxMagnitude` in
size, and an operation is refused when its result, or a number it needs on the way, does not fit.
Sums are formed over the least common denominator, products and quotients in lowest terms.
-/

namespace Ergo.Bounded

open Ergo.Language

def fits (value : Int) : Bool :=
  -(maxMagnitude + 1 : Int) ≤ value && value ≤ maxMagnitude

/-- Whether a rational number is usable: it and its negative fit. -/
def inRange (value : Rat) : Bool :=
  value.num.natAbs ≤ maxMagnitude && value.den ≤ maxMagnitude

def keep? (value : Rat) : Option Rat :=
  if inRange value then some value else none

/-- Joins two numbers over their least common denominator. -/
def overCommonDenominator? (join : Int → Int → Int) (left right : Rat) : Option Rat :=
  let common := Nat.lcm left.den right.den
  let leftNumerator := left.num * (common / left.den : Nat)
  let rightNumerator := right.num * (common / right.den : Nat)
  let numerator := join leftNumerator rightNumerator
  if common ≤ maxMagnitude && fits leftNumerator && fits rightNumerator && fits numerator then
    keep? (mkRat numerator common)
  else none

def add? (left right : Rat) : Option Rat :=
  overCommonDenominator? (· + ·) left right

def subtract? (left right : Rat) : Option Rat :=
  overCommonDenominator? (· - ·) left right

def multiply? (left right : Rat) : Option Rat :=
  keep? (left * right)

def divide? (left right : Rat) : Option Rat :=
  if right = 0 then none else keep? (left / right)

def negate? (value : Rat) : Option Rat :=
  keep? (-value)

theorem inRange_of_keep? {value kept : Rat} (found : keep? value = some kept) :
    kept = value ∧ inRange value = true := by
  unfold keep? at found
  split at found
  · next usable => exact ⟨(Option.some.inj found).symm, usable⟩
  · cases found

end Ergo.Bounded
