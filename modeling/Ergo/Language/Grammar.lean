import Ergo.Language.Expression
import Ergo.Language.Token

/-!
Expressions read from tokens by binding power. A sign between two expressions holds each of them with
a power of its own, and an expression is read up to the first sign whose power to the left is below
the power asked for; so products bind before sums, sums before comparisons, and signs of one power
from left to right. Each reader returns what it read and the tokens it left, which are fewer than
those it was given.
-/

namespace Ergo.Language

/-- Tokens left after at least one was read. -/
abbrev Rest (tokens : List Token) :=
  { rest : List Token // rest.length < tokens.length }

/-- Tokens left after any number was read. -/
abbrev Tail (tokens : List Token) :=
  { rest : List Token // rest.length ≤ tokens.length }

/-! ## Signs between expressions -/

inductive Joint
  | compare (comparison : Comparison)
  | operate (operator : Operator)
  deriving DecidableEq, Repr

namespace Joint

/-- The power with which a sign holds the expression before it. -/
def leftPower : Joint → Nat
  | .compare _ => 1
  | .operate .add | .operate .subtract => 3
  | .operate .multiply | .operate .divide => 5

/-- The power with which a sign holds the expression after it. -/
def rightPower : Joint → Nat
  | .compare _ => 2
  | .operate .add | .operate .subtract => 4
  | .operate .multiply | .operate .divide => 6

def join (position : Nat) : Joint → Expression → Expression → Expression
  | .compare comparison => .compare position comparison
  | .operate operator => .operate position operator

/-- The position of a comparison that follows the second operand of a comparison. -/
def chained? : Joint → List Token → Option Nat
  | .compare _, ⟨.compare _, position⟩ :: _ => some position
  | _, _ => none

end Joint

/-- The power with which a negative sign holds the expression after it, above that of any joint. -/
def negativePower : Nat := 7

def Lexeme.joint? : Lexeme → Option Joint
  | .compare comparison => some (.compare comparison)
  | .plus => some (.operate .add)
  | .minus => some (.operate .subtract)
  | .star => some (.operate .multiply)
  | .slash => some (.operate .divide)
  | _ => none

/-! ## Brackets -/

inductive Bracket
  | round
  | square
  deriving DecidableEq, Repr

def Bracket.closing : Bracket → Lexeme
  | .round => .rightParen
  | .square => .rightBracket

def Bracket.closingText : Bracket → Char
  | .round => ')'
  | .square => ']'

/-- Reads the closing sign of a bracket; `stop` is the offset of the end of the text. -/
def close (stop : Nat) (bracket : Bracket) (tokens : List Token) :
    Except ParseError (Rest tokens) :=
  match tokens with
  | [] => .error ⟨stop, .expectedClosing bracket.closingText⟩
  | token :: rest =>
      if token.lexeme = bracket.closing then .ok ⟨rest, by simp⟩
      else .error ⟨token.position, .expectedClosing bracket.closingText⟩

/-! ## Expressions -/

mutual
/-- Reads an expression up to the first joint that holds what is before it with less than `power`. -/
def expressionFrom (stop power : Nat) (tokens : List Token) :
    Except ParseError (Expression × Rest tokens) := do
  let (first, ⟨afterFirst, shorter⟩) ← operandFrom stop tokens
  let (whole, ⟨rest, notLonger⟩) ← joinedFrom stop power first afterFirst
  return (whole, ⟨rest, by omega⟩)
termination_by 4 * tokens.length + 1

/-- Joins to `left` what follows it. -/
def joinedFrom (stop power : Nat) (left : Expression) (tokens : List Token) :
    Except ParseError (Expression × Tail tokens) :=
  match tokens with
  | [] => .ok (left, ⟨[], by simp⟩)
  | ⟨lexeme, position⟩ :: operand =>
      match lexeme.joint? with
      | none => .ok (left, ⟨⟨lexeme, position⟩ :: operand, by simp⟩)
      | some joint =>
          if joint.leftPower < power then .ok (left, ⟨⟨lexeme, position⟩ :: operand, by simp⟩)
          else do
            let (right, ⟨afterRight, shorter⟩) ← expressionFrom stop joint.rightPower operand
            match joint.chained? afterRight with
            | some chained => throw ⟨chained, .chainedComparison⟩
            | none =>
                let (whole, ⟨rest, notLonger⟩) ←
                  joinedFrom stop power (joint.join position left right) afterRight
                return (whole, ⟨rest, by simp only [List.length_cons]; omega⟩)
termination_by 4 * tokens.length + 0

/-- Reads what stands between two joints. -/
def operandFrom (stop : Nat) (tokens : List Token) :
    Except ParseError (Expression × Rest tokens) :=
  match tokens with
  | [] => .error ⟨stop, .unexpectedEnd⟩
  | ⟨.number value, position⟩ :: rest =>
      .ok (.number position value, ⟨rest, by simp⟩)
  | ⟨.name function, position⟩ :: ⟨.leftParen, _⟩ :: operands => do
      let (arguments, ⟨rest, shorter⟩) ← enclosed stop .round operands
      return (.call position function arguments,
        ⟨rest, by simp only [List.length_cons]; omega⟩)
  | ⟨.name text, position⟩ :: rest =>
      .ok (.name position text, ⟨rest, by simp⟩)
  | ⟨.leftParen, _⟩ :: operand => do
      let (inner, ⟨afterInner, shorter⟩) ← expressionFrom stop 0 operand
      let ⟨rest, restShorter⟩ ← close stop .round afterInner
      return (inner, ⟨rest, by simp only [List.length_cons]; omega⟩)
  | ⟨.leftBracket, position⟩ :: operands => do
      let (items, ⟨rest, shorter⟩) ← enclosed stop .square operands
      return (.list position items, ⟨rest, by simp only [List.length_cons]; omega⟩)
  | ⟨.minus, position⟩ :: operand => do
      let (inner, ⟨rest, shorter⟩) ← expressionFrom stop negativePower operand
      return (.negate position inner, ⟨rest, by simp only [List.length_cons]; omega⟩)
  | ⟨_, position⟩ :: _ => .error ⟨position, .expectedExpression⟩
termination_by 4 * tokens.length + 0

/-- Expressions between commas up to and including the closing sign of `bracket`. -/
def enclosed (stop : Nat) (bracket : Bracket) (tokens : List Token) :
    Except ParseError (List Expression × Rest tokens) :=
  match close stop bracket tokens with
  | .ok rest => .ok ([], rest)
  | .error _ => do
      let (items, ⟨afterItems, shorter⟩) ← elements stop tokens
      let ⟨rest, restShorter⟩ ← close stop bracket afterItems
      return (items, ⟨rest, by omega⟩)
termination_by 4 * tokens.length + 3

/-- One or more expressions between commas. -/
def elements (stop : Nat) (tokens : List Token) :
    Except ParseError (List Expression × Rest tokens) := do
  let (first, ⟨afterFirst, shorter⟩) ← expressionFrom stop 0 tokens
  match afterFirst, shorter with
  | ⟨.comma, _⟩ :: more, shorter =>
      have moreShorter : more.length < tokens.length := by
        simp only [List.length_cons] at shorter
        omega
      let (others, ⟨rest, restShorter⟩) ← elements stop more
      return (first :: others, ⟨rest, by omega⟩)
  | rest, shorter => return ([first], ⟨rest, shorter⟩)
termination_by 4 * tokens.length + 2
end

/-! ## Whole texts -/

def finish {α : Type} (value : α) : List Token → Except ParseError α
  | [] => .ok value
  | token :: _ => .error ⟨token.position, .trailingInput⟩

/-- Reads all tokens of a text as one expression. -/
def readExpression (stop : Nat) (tokens : List Token) : Except ParseError Expression := do
  let (expression, rest) ← expressionFrom stop 0 tokens
  finish expression rest.val

/-- Reads all tokens of a text as one or more expressions between commas. -/
def readExpressions (stop : Nat) (tokens : List Token) : Except ParseError (List Expression) := do
  if tokens.isEmpty then throw ⟨0, .emptyExpression⟩
  let (expressions, rest) ← elements stop tokens
  finish expressions rest.val

def endOf (text : String) : Nat :=
  Text.byteLength text.toList

def parseExpression (text : String) : Except ParseError Expression := do
  let tokens ← scan text
  readExpression (endOf text) tokens

/-- Reads a text that is one or more expressions between commas. -/
def parseExpressions (text : String) : Except ParseError (List Expression) := do
  let tokens ← scan text
  readExpressions (endOf text) tokens

end Ergo.Language
