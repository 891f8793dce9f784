import Ergo.Language.Comparison

/-!
Expressions before they are read as formulas or constraints. Every node carries the byte offset
of the token that makes it: the operator of a binary node, the first token of any other.
-/

namespace Ergo.Language

inductive Operator
  | add
  | subtract
  | multiply
  | divide
  deriving DecidableEq, Repr

def Operator.symbol : Operator → String
  | .add => "+"
  | .subtract => "-"
  | .multiply => "*"
  | .divide => "/"

inductive Expression
  | name (position : Nat) (text : String)
  | number (position : Nat) (value : Rat)
  | list (position : Nat) (items : List Expression)
  | call (position : Nat) (function : String) (arguments : List Expression)
  | negate (position : Nat) (operand : Expression)
  | operate (position : Nat) (operator : Operator) (left right : Expression)
  | compare (position : Nat) (comparison : Comparison) (left right : Expression)
  deriving Repr

/-- Induction in which items and arguments are met as members of a list. -/
theorem Expression.inductionOn {motive : Expression → Prop}
    (name : ∀ position text, motive (.name position text))
    (number : ∀ position value, motive (.number position value))
    (list : ∀ position items, (∀ item ∈ items, motive item) → motive (.list position items))
    (call : ∀ position function arguments, (∀ argument ∈ arguments, motive argument) →
      motive (.call position function arguments))
    (negate : ∀ position operand, motive operand → motive (.negate position operand))
    (operate : ∀ position operator left right, motive left → motive right →
      motive (.operate position operator left right))
    (compare : ∀ position comparison left right, motive left → motive right →
      motive (.compare position comparison left right))
    (expression : Expression) : motive expression :=
  Expression.rec (motive_1 := motive) (motive_2 := fun items => ∀ item ∈ items, motive item)
    name number list call negate operate compare
    (by simp)
    (fun _ _ headHolds tailHolds item member => by
      rcases List.mem_cons.mp member with rfl | member
      · exact headHolds
      · exact tailHolds item member)
    expression

def Expression.position : Expression → Nat
  | .name position _ => position
  | .number position _ => position
  | .list position _ => position
  | .call position _ _ => position
  | .negate position _ => position
  | .operate position _ _ _ => position
  | .compare position _ _ _ => position

/-! ## Equality -/

mutual
def Expression.same : Expression → Expression → Bool
  | .name position text, .name otherPosition otherText =>
      position == otherPosition && text == otherText
  | .number position value, .number otherPosition otherValue =>
      position == otherPosition && value == otherValue
  | .list position items, .list otherPosition otherItems =>
      position == otherPosition && Expression.sameItems items otherItems
  | .call position function arguments, .call otherPosition otherFunction otherArguments =>
      position == otherPosition && function == otherFunction &&
        Expression.sameItems arguments otherArguments
  | .negate position operand, .negate otherPosition otherOperand =>
      position == otherPosition && Expression.same operand otherOperand
  | .operate position operator left right,
      .operate otherPosition otherOperator otherLeft otherRight =>
      position == otherPosition && operator == otherOperator &&
        Expression.same left otherLeft && Expression.same right otherRight
  | .compare position comparison left right,
      .compare otherPosition otherComparison otherLeft otherRight =>
      position == otherPosition && comparison == otherComparison &&
        Expression.same left otherLeft && Expression.same right otherRight
  | _, _ => false

def Expression.sameItems : List Expression → List Expression → Bool
  | [], [] => true
  | item :: items, other :: others => Expression.same item other && Expression.sameItems items others
  | _, _ => false
end

namespace Expression

theorem sameItems_iff {items : List Expression}
    (itemsDecided : ∀ item ∈ items, ∀ other, same item other = true ↔ item = other)
    (others : List Expression) : sameItems items others = true ↔ items = others := by
  induction items generalizing others with
  | nil => cases others <;> simp [sameItems]
  | cons item items induction =>
      cases others with
      | nil => simp [sameItems]
      | cons other others =>
          have tail := induction (fun item member =>
            itemsDecided item (List.mem_cons_of_mem _ member)) others
          simp [sameItems, tail, itemsDecided item (by simp) other]

theorem same_iff (expression other : Expression) :
    same expression other = true ↔ expression = other := by
  induction expression using inductionOn generalizing other with
  | name position text => cases other <;> simp [same]
  | number position value => cases other <;> simp [same]
  | list position items induction => cases other <;> simp [same, sameItems_iff induction]
  | call position function arguments induction =>
      cases other <;> simp [same, sameItems_iff induction, and_assoc]
  | negate position operand induction => cases other <;> simp [same, induction]
  | operate position operator left right leftInduction rightInduction =>
      cases other <;> simp [same, leftInduction, rightInduction, and_assoc]
  | compare position comparison left right leftInduction rightInduction =>
      cases other <;> simp [same, leftInduction, rightInduction, and_assoc]

instance : DecidableEq Expression := fun expression other =>
  decidable_of_iff (same expression other = true) (same_iff expression other)

end Expression

end Ergo.Language
