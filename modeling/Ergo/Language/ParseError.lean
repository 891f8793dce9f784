import Ergo.Language.Comparison

/-!
What can be wrong with a text of the language, and how it is reported. A position is a byte
offset into the text.
-/

namespace Ergo.Language

inductive Operands
  | binderAndBody
  | one
  | two
  deriving DecidableEq, Repr

def Operands.describe : Operands → String
  | .binderAndBody => "a variable list and a body"
  | .one => "one argument"
  | .two => "two arguments"

inductive Fault
  | unexpectedCharacter (char : Char)
  | invalidNumber (text : String)
  | numberOutOfRange (text : String)
  | unexpectedEnd
  | expectedExpression
  | expectedClosing (bracket : Char)
  | chainedComparison
  | trailingInput
  | emptyExpression
  | keywordAsTerm (word : String)
  | expectedTerm
  | termAsFormula (name : String)
  | keywordAsFunction (word : String)
  | wrongOperands (word : String) (expected : Operands)
  | expectedFormula
  | expectedVariableList
  | noVariables
  | expectedVariableName
  | orderBetweenObjects (comparison : Comparison)
  | invalidIdentifier (word : String)
  | missingName (keyword : String)
  | sortTakesOnlyName
  | tooManySorts (keyword : String)
  | unknownKeyword (keyword : String)
  | valueOutOfRange
  | keywordAsNumber (word : String)
  | divisionByVariable
  | divisionByZero
  | productOfVariables
  | notNumericFunction (name : String)
  | unexpectedList
  | comparisonAsNumber
  | unknownFunction (name : String)
  | wrongArgumentCount (name : String) (count : Nat)
  | expectedConstraint
  deriving DecidableEq, Repr

def Fault.describe : Fault → String
  | .unexpectedCharacter char => s!"unexpected character '{char}'"
  | .invalidNumber text => s!"invalid number '{text}'"
  | .numberOutOfRange text => s!"number '{text}' is out of range"
  | .unexpectedEnd => "unexpected end of input"
  | .expectedExpression => "expected an expression"
  | .expectedClosing bracket => s!"expected '{bracket}'"
  | .chainedComparison => "chained comparisons are not supported"
  | .trailingInput => "unexpected trailing input"
  | .emptyExpression => "empty expression"
  | .keywordAsTerm word => s!"'{word}' cannot be used as a term"
  | .expectedTerm => "expected a constant or variable"
  | .termAsFormula name => s!"expected a formula, found term '{name}'"
  | .keywordAsFunction word => s!"'{word}' is not a function"
  | .wrongOperands word expected => s!"{word} expects {expected.describe}"
  | .expectedFormula => "expected a formula"
  | .expectedVariableList => "expected a variable list"
  | .noVariables => "quantifier binds no variables"
  | .expectedVariableName => "expected a variable name"
  | .orderBetweenObjects comparison =>
      s!"'{comparison.symbol}' is not defined between objects"
  | .invalidIdentifier word => s!"'{word}' is not a valid identifier"
  | .missingName keyword => s!"{keyword} expects a name"
  | .sortTakesOnlyName => "declare-sort takes only a name"
  | .tooManySorts keyword => s!"{keyword} takes one sort"
  | .unknownKeyword keyword => s!"unknown statement keyword '{keyword}'"
  | .valueOutOfRange => "numeric value is out of range"
  | .keywordAsNumber word => s!"'{word}' is not a numeric value"
  | .divisionByVariable => "division is only supported by a constant"
  | .divisionByZero => "division by zero"
  | .productOfVariables => "multiplication is only supported by a constant"
  | .notNumericFunction name => s!"'{name}' is not an arithmetic function"
  | .unexpectedList => "unexpected list"
  | .comparisonAsNumber => "comparison used where a number was expected"
  | .unknownFunction name => s!"unknown function '{name}'"
  | .wrongArgumentCount name count => s!"{name} does not take {count} argument(s)"
  | .expectedConstraint => "expected a comparison or boolean expression"

structure ParseError where
  position : Nat
  fault : Fault
  deriving DecidableEq, Repr

def ParseError.message (error : ParseError) : String :=
  s!"{error.fault.describe} at position {error.position}"

end Ergo.Language
