/-!
Values of the JSON data format. A number is kept as it is written.
-/

namespace Ergo

inductive Json
  | null
  | bool (value : Bool)
  | number (literal : String)
  /-- A text, or nothing if its escapes name no characters. -/
  | string (text? : Option String)
  | array (items : List Json)
  /-- Members in order, under names that are read as texts are. -/
  | object (members : List (Option String × Json))
  deriving Inhabited, Repr

namespace Json

def text (text : String) : Json :=
  .string (some text)

def natural (value : Nat) : Json :=
  .number (toString value)

def record (members : List (String × Json)) : Json :=
  .object (members.map fun member => (some member.1, member.2))

def texts (texts : List String) : Json :=
  .array (texts.map text)

def text? : Json → Option String
  | .string text? => text?
  | _ => none

def wordBound : Nat := Nat.pow 2 64

/-- The value of a number that is written with digits only and fits a word. -/
def natural? : Json → Option Nat
  | .number literal =>
      if literal.toList.all Char.isDigit then literal.toNat?.filter (· < wordBound) else none
  | _ => none

def items? : Json → Option (List Json)
  | .array items => some items
  | _ => none

def texts? (json : Json) : Option (List String) :=
  json.items?.bind fun items => items.mapM text?

/-- The name of a case without data: a text, or an object with the case as its only name and no
value. -/
def caseName? : Json → Option String
  | .string text? => text?
  | .object [(name?, .null)] => name?
  | _ => none

def member? (members : List (Option String × Json)) (name : String) : Option Json :=
  match members.filter fun member => member.1 == some name with
  | [member] => some member.2
  | _ => none

/-- The fields of a record: the members of an object under these names, each exactly once, or the
items of an array of as many. -/
def fields? (names : List String) : Json → Option (List Json)
  | .array items => if items.length == names.length then some items else none
  | .object members =>
      if members.all fun member => member.1.isSome then names.mapM (member? members) else none
  | _ => none

end Json

end Ergo
