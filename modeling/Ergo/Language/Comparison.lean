/-!
The six comparisons of the language, with their written form and their meaning on numbers.
-/

namespace Ergo.Language

inductive Comparison
  | equal
  | notEqual
  | less
  | lessOrEqual
  | greater
  | greaterOrEqual
  deriving DecidableEq, Repr

namespace Comparison

def symbol : Comparison → String
  | .equal => "=="
  | .notEqual => "!="
  | .less => "<"
  | .lessOrEqual => "<="
  | .greater => ">"
  | .greaterOrEqual => ">="

def holds : Comparison → Rat → Rat → Bool
  | .equal, left, right => left == right
  | .notEqual, left, right => left != right
  | .less, left, right => left < right
  | .lessOrEqual, left, right => left ≤ right
  | .greater, left, right => right < left
  | .greaterOrEqual, left, right => right ≤ left

def negate : Comparison → Comparison
  | .equal => .notEqual
  | .notEqual => .equal
  | .less => .greaterOrEqual
  | .lessOrEqual => .greater
  | .greater => .lessOrEqual
  | .greaterOrEqual => .less

@[simp] theorem negate_negate (comparison : Comparison) :
    comparison.negate.negate = comparison := by
  cases comparison <;> rfl

end Comparison

end Ergo.Language
