import Ergo.Formula.Basic

/-!
Substitution of terms for the free occurrences of variables. Bindings are listed latest first, and
the first binding of a name counts. Quantifiers hide the bindings of the variables they bind; the
terms that are put in are constants wherever the library substitutes, so nothing is captured.
-/

namespace Ergo

abbrev Bindings := List (String × Term)

namespace Bindings

def ofPairs (pairs : List (String × Term)) : Bindings :=
  pairs.reverse

def hide (bindings : Bindings) (binders : List String) : Bindings :=
  bindings.filter fun binding => !binders.contains binding.1

end Bindings

def Term.substitute (bindings : Bindings) : Term → Term
  | .constant name => .constant name
  | .var name => (bindings.lookup name).getD (.var name)

namespace Formula

mutual
def substitute (bindings : Bindings) : Formula → Formula
  | .truth => .truth
  | .falsity => .falsity
  | .atom predicate arguments => .atom predicate (arguments.map (Term.substitute bindings))
  | .equal left right => .equal (left.substitute bindings) (right.substitute bindings)
  | .not operand => .not (operand.substitute bindings)
  | .and parts => .and (substituteParts bindings parts)
  | .or parts => .or (substituteParts bindings parts)
  | .implies premise consequent =>
      .implies (premise.substitute bindings) (consequent.substitute bindings)
  | .forAll binders body => .forAll binders (body.substitute (bindings.hide binders))
  | .forSome binders body => .forSome binders (body.substitute (bindings.hide binders))

def substituteParts (bindings : Bindings) : List Formula → List Formula
  | [] => []
  | part :: parts => part.substitute bindings :: substituteParts bindings parts
end

@[simp] theorem substituteParts_eq_map (bindings : Bindings) (parts : List Formula) :
    substituteParts bindings parts = parts.map (substitute bindings) := by
  induction parts with
  | nil => simp [substituteParts]
  | cons part parts induction => simp [substituteParts, induction]

end Formula

end Ergo
