import Ergo.Json.Basic

/-!
Tokens of the JSON format: signs, texts, and runs of the letters, digits and marks of which words
and numbers consist.
-/

namespace Ergo.Json

inductive Sign
  | openBracket
  | closeBracket
  | openBrace
  | closeBrace
  | colon
  | comma
  deriving DecidableEq, Repr

inductive Token
  | sign (sign : Sign)
  | text (text? : Option String)
  /-- A word or number, as the value it stands for. -/
  | atom (value : Json)
  deriving Repr

def Sign.ofChar? : Char → Option Sign
  | '[' => some .openBracket
  | ']' => some .closeBracket
  | '\x7b' => some .openBrace
  | '\x7d' => some .closeBrace
  | ':' => some .colon
  | ',' => some .comma
  | _ => none

def isSpace (char : Char) : Bool :=
  char == ' ' || char == '\n' || char == '\t' || char == '\r'

/-! ## Words and numbers -/

def isAtomPart (char : Char) : Bool :=
  char.isAlphanum || char == '+' || char == '-' || char == '.'

def isWhole : List Char → Bool
  | [] => false
  | first :: rest => first.isDigit && rest.all Char.isDigit && (first != '0' || rest.isEmpty)

def isDigits (chars : List Char) : Bool :=
  !chars.isEmpty && chars.all Char.isDigit

def isExponent : List Char → Bool
  | '+' :: digits => isDigits digits
  | '-' :: digits => isDigits digits
  | digits => isDigits digits

/-- What may follow the whole part of a number: a fraction, an exponent, or both. -/
def isNumberTail : List Char → Bool
  | [] => true
  | '.' :: rest =>
      isDigits (rest.takeWhile Char.isDigit) &&
        match rest.dropWhile Char.isDigit with
        | [] => true
        | mark :: exponent => (mark == 'e' || mark == 'E') && isExponent exponent
  | mark :: exponent => (mark == 'e' || mark == 'E') && isExponent exponent

def isUnsigned (chars : List Char) : Bool :=
  isWhole (chars.takeWhile Char.isDigit) && isNumberTail (chars.dropWhile Char.isDigit)

def isNumber : List Char → Bool
  | '-' :: chars => isUnsigned chars
  | chars => isUnsigned chars

/-- The value of a word or number. -/
def atom? (chars : List Char) : Option Json :=
  match String.ofList chars with
  | "null" => some .null
  | "true" => some (.bool true)
  | "false" => some (.bool false)
  | literal => if isNumber chars then some (.number literal) else none

/-! ## Texts -/

/-- A part of a text: a character, or a unit of 16 bits given by its four digits. -/
inductive Piece
  | char (char : Char)
  | unit (code : Nat)
  deriving DecidableEq, Repr

def hexDigit? (char : Char) : Option Nat :=
  if char.isDigit then some (char.toNat - '0'.toNat)
  else if 'a' ≤ char ∧ char ≤ 'f' then some (char.toNat - 'a'.toNat + 10)
  else if 'A' ≤ char ∧ char ≤ 'F' then some (char.toNat - 'A'.toNat + 10)
  else none

def unit? (digits : List Char) : Option Nat := do
  let values ← digits.mapM hexDigit?
  return values.foldl (fun code value => 16 * code + value) 0

/-- The character that a letter after a backslash stands for. -/
def escaped? : Char → Option Char
  | '"' => some '"'
  | '\\' => some '\\'
  | '/' => some '/'
  | 'b' => some '\x08'
  | 'f' => some '\x0c'
  | 'n' => some '\n'
  | 'r' => some '\r'
  | 't' => some '\t'
  | _ => none

/-- The pieces of a text up to the closing quote, and what follows it. -/
def pieces? : (chars : List Char) →
    Option (List Piece × { rest : List Char // rest.length < chars.length })
  | '"' :: rest => some ([], ⟨rest, by simp⟩)
  | '\\' :: 'u' :: first :: second :: third :: fourth :: rest => do
      let code ← unit? [first, second, third, fourth]
      let (pieces, ⟨after, shorter⟩) ← pieces? rest
      return (.unit code :: pieces, ⟨after, by simp only [List.length_cons]; omega⟩)
  | '\\' :: letter :: rest => do
      let char ← escaped? letter
      let (pieces, ⟨after, shorter⟩) ← pieces? rest
      return (.char char :: pieces, ⟨after, by simp only [List.length_cons]; omega⟩)
  | char :: rest =>
      if char.toNat < 0x20 || char == '\\' then none
      else do
        let (pieces, ⟨after, shorter⟩) ← pieces? rest
        return (.char char :: pieces, ⟨after, by simp only [List.length_cons]; omega⟩)
  | [] => none

def isHighUnit (code : Nat) : Bool :=
  0xD800 ≤ code && code < 0xDC00

def isLowUnit (code : Nat) : Bool :=
  0xDC00 ≤ code && code < 0xE000

/-- The characters of pieces. A high unit and the low unit after it are one character; alone they
are none. -/
def characters? : List Piece → Option (List Char)
  | [] => some []
  | .char char :: later => (characters? later).map (char :: ·)
  | .unit high :: .unit low :: later =>
      if isHighUnit high && isLowUnit low then
        (characters? later).map
          (Char.ofNat (0x10000 + (high - 0xD800) * 0x400 + (low - 0xDC00)) :: ·)
      else if isHighUnit high || isLowUnit high then none
      else (characters? (.unit low :: later)).map (Char.ofNat high :: ·)
  | .unit code :: later =>
      if isHighUnit code || isLowUnit code then none
      else (characters? later).map (Char.ofNat code :: ·)

/-! ## Scanning -/

def scan? (chars : List Char) : Option (List Token) :=
  match chars with
  | [] => some []
  | char :: rest =>
      if isSpace char then scan? rest
      else if char == '"' then do
        let (pieces, ⟨after, _⟩) ← pieces? rest
        let tokens ← scan? after
        return .text ((characters? pieces).map String.ofList) :: tokens
      else
        match Sign.ofChar? char with
        | some sign => (scan? rest).map (.sign sign :: ·)
        | none =>
            if isAtomPart char then do
              let value ← atom? (char :: rest.takeWhile isAtomPart)
              have := (List.dropWhile_sublist (l := rest) isAtomPart).length_le
              let tokens ← scan? (rest.dropWhile isAtomPart)
              return .atom value :: tokens
            else none
termination_by chars.length
decreasing_by all_goals simp only [List.length_cons]; omega

end Ergo.Json
