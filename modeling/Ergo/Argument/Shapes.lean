import Ergo.Formula.Basic

/-!
The formulas that arguments are made of.
-/

namespace Ergo.Formula

def property (predicate name : String) : Formula :=
  .atom predicate [.constant name]

def link (relation first second : String) : Formula :=
  .atom relation [.constant first, .constant second]

def signed (negated : Bool) (formula : Formula) : Formula :=
  if negated then .not formula else formula

/-- Whatever has the first property has the second. -/
def inclusion (first second : String) : Formula :=
  .forAll ["x"] (.implies (.atom first [.var "x"]) (.atom second [.var "x"]))

/-- Something has both properties. -/
def overlap (first second : String) : Formula :=
  .forSome ["x"] (.and [.atom first [.var "x"], .atom second [.var "x"]])

/-- If the first relation holds, so does the second. -/
def subrelation (first second : String) : Formula :=
  .forAll ["x", "y"]
    (.implies (.atom first [.var "x", .var "y"]) (.atom second [.var "x", .var "y"]))

def transitivity (relation : String) : Formula :=
  .forAll ["x", "y", "z"]
    (.implies
      (.and [.atom relation [.var "x", .var "y"], .atom relation [.var "y", .var "z"]])
      (.atom relation [.var "x", .var "z"]))

end Ergo.Formula
