import Ergo.Language.ParseError
import Ergo.Text.Words

/-!
Tokens of the language and the scanner that cuts a text into them. Each token carries the byte
offset at which it starts. Words and numbers are ASCII; any other character outside the fixed
signs is an error.
-/

namespace Ergo.Language

open Ergo.Text

inductive Lexeme
  | name (text : String)
  | number (value : Rat)
  | leftParen
  | rightParen
  | leftBracket
  | rightBracket
  | comma
  | plus
  | minus
  | star
  | slash
  | compare (comparison : Comparison)
  deriving DecidableEq, Repr

structure Token where
  lexeme : Lexeme
  position : Nat
  deriving DecidableEq, Repr

/-! ## Characters -/

def isSpace (char : Char) : Bool :=
  char == ' ' || char == '\t' || char == '\n' || char == '\x0c' || char == '\r'

def isNameStart (char : Char) : Bool :=
  char.isAlpha || char == '_'

def isNamePart (char : Char) : Bool :=
  char.isAlphanum || char == '_'

def isNumberPart (char : Char) : Bool :=
  char.isDigit || char == '.'

def isIdentifier (word : List Char) : Bool :=
  match word with
  | [] => false
  | first :: rest => isNameStart first && rest.all isNamePart

/-! ## Numbers -/

def maxMagnitude : Nat := Nat.pow 2 63 - 1

def digitsValue (digits : List Char) : Nat :=
  digits.foldl (fun value digit => 10 * value + (digit.toNat - '0'.toNat)) 0

/-- A decimal number with at most one point. Its digits without the point, and the power of ten
that divides them, must not exceed `maxMagnitude`. -/
def readNumber (digits : List Char) : Except Fault Rat :=
  let (whole, fraction) := (cutAtFirst (· == '.') digits).getD (digits, [])
  if fraction.contains '.' || (whole.isEmpty && fraction.isEmpty) then
    .error (.invalidNumber (String.ofList digits))
  else
    let value := digitsValue (whole ++ fraction)
    let scale := Nat.pow 10 fraction.length
    if value ≤ maxMagnitude && scale ≤ maxMagnitude then .ok (mkRat value scale)
    else .error (.numberOutOfRange (String.ofList digits))

/-! ## Scanning -/

/-- The sign at the start of a text, with the number of characters it takes. -/
def sign? (char : Char) (rest : List Char) : Option (Lexeme × Nat) :=
  let followedByEqual := rest.head? == some '='
  match char with
  | '(' => some (.leftParen, 1)
  | ')' => some (.rightParen, 1)
  | '[' => some (.leftBracket, 1)
  | ']' => some (.rightBracket, 1)
  | ',' => some (.comma, 1)
  | '+' => some (.plus, 1)
  | '-' => some (.minus, 1)
  | '*' => some (.star, 1)
  | '/' => some (.slash, 1)
  | '=' => some (.compare .equal, if followedByEqual then 2 else 1)
  | '!' => if followedByEqual then some (.compare .notEqual, 2) else none
  | '<' =>
      if followedByEqual then some (.compare .lessOrEqual, 2) else some (.compare .less, 1)
  | '>' =>
      if followedByEqual then some (.compare .greaterOrEqual, 2)
      else some (.compare .greater, 1)
  | _ => none

theorem length_dropWhile_le (keep : Char → Bool) (chars : List Char) :
    (chars.dropWhile keep).length ≤ chars.length :=
  (List.dropWhile_suffix keep).length_le

/-- Tokens of a text whose first character stands at `position`. -/
def scanFrom (position : Nat) (chars : List Char) : Except ParseError (List Token) :=
  match chars with
  | [] => .ok []
  | char :: rest =>
      if isSpace char then scanFrom (position + 1) rest
      else if isNumberPart char then
        let digits := char :: rest.takeWhile isNumberPart
        match readNumber digits with
        | .error fault => .error ⟨position, fault⟩
        | .ok value =>
            (scanFrom (position + digits.length) (rest.dropWhile isNumberPart)).map
              (⟨.number value, position⟩ :: ·)
      else if isNameStart char then
        let word := char :: rest.takeWhile isNamePart
        (scanFrom (position + word.length) (rest.dropWhile isNamePart)).map
          (⟨.name (String.ofList word), position⟩ :: ·)
      else
        match sign? char rest with
        | none => .error ⟨position, .unexpectedCharacter char⟩
        | some (lexeme, width) =>
            (scanFrom (position + width) (rest.drop (width - 1))).map
              (⟨lexeme, position⟩ :: ·)
termination_by chars.length
decreasing_by
  · simp
  · have bound := length_dropWhile_le isNumberPart rest
    simp only [List.length_cons]
    omega
  · have bound := length_dropWhile_le isNamePart rest
    simp only [List.length_cons]
    omega
  · simp only [List.length_drop, List.length_cons]
    omega

def scan (text : String) : Except ParseError (List Token) :=
  scanFrom 0 text.toList

end Ergo.Language
