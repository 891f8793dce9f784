import Ergo.Json.Basic

/-!
Writing JSON: on one line, or over several lines with each level two spaces deeper. Lists and
objects without parts are closed on the same line.
-/

namespace Ergo.Json

def hexDigit (value : Nat) : Char :=
  if value < 10 then Char.ofNat ('0'.toNat + value) else Char.ofNat ('a'.toNat + value - 10)

/-- A character as it is written in a text: quotes, backslashes and control characters are
escaped. -/
def escape (char : Char) : List Char :=
  match char with
  | '"' => ['\\', '"']
  | '\\' => ['\\', '\\']
  | '\x08' => ['\\', 'b']
  | '\x0c' => ['\\', 'f']
  | '\n' => ['\\', 'n']
  | '\r' => ['\\', 'r']
  | '\t' => ['\\', 't']
  | char =>
      if char.toNat < 0x20 then
        ['\\', 'u', '0', '0', hexDigit (char.toNat / 16), hexDigit (char.toNat % 16)]
      else [char]

def quote (text : String) : String :=
  "\"" ++ String.ofList (text.toList.flatMap escape) ++ "\""

/-! ## One line -/

def enclose (opening closing : String) (parts : List String) : String :=
  opening ++ ",".intercalate parts ++ closing

mutual
/-- The text of a value on one line. -/
def render : Json → String
  | .null => "null"
  | .bool value => if value then "true" else "false"
  | .number literal => literal
  | .string text? => quote (text?.getD "")
  | .array items => enclose "[" "]" (renderItems items)
  | .object members => enclose "\x7b" "\x7d" (renderMembers members)

def renderItems : List Json → List String
  | [] => []
  | item :: items => item.render :: renderItems items

def renderMembers : List (Option String × Json) → List String
  | [] => []
  | (name?, value) :: members =>
      (quote (name?.getD "") ++ ":" ++ value.render) :: renderMembers members
end

/-! ## Several lines -/

def indent (depth : Nat) : String :=
  String.ofList (List.replicate (2 * depth) ' ')

/-- Parts on lines of their own between an opening and a closing sign. -/
def block (opening closing : String) (depth : Nat) (parts : List String) : String :=
  if parts.isEmpty then opening ++ closing
  else
    opening ++ "\n" ++ ",\n".intercalate (parts.map (indent (depth + 1) ++ ·)) ++ "\n" ++
      indent depth ++ closing

mutual
/-- The text of a value that starts at a depth. -/
def layOut (depth : Nat) : Json → String
  | .array items => block "[" "]" depth (layOutItems (depth + 1) items)
  | .object members => block "\x7b" "\x7d" depth (layOutMembers (depth + 1) members)
  | json => json.render

def layOutItems (depth : Nat) : List Json → List String
  | [] => []
  | item :: items => layOut depth item :: layOutItems depth items

def layOutMembers (depth : Nat) : List (Option String × Json) → List String
  | [] => []
  | (name?, value) :: members =>
      (quote (name?.getD "") ++ ": " ++ layOut depth value) :: layOutMembers depth members
end

def renderLines (json : Json) : String :=
  json.layOut 0

end Ergo.Json
