import Ergo.Formula.Reader
import Ergo.Program.Basic

/-!
Reading statements. A statement is a keyword followed by white space and its operands: a formula
for an assertion, a name and sorts for a declaration. Sorts that are left out are `Object`.
-/

namespace Ergo

open Ergo.Language Ergo.Text

/-- Moves the place of an error in a part of a text to its place in the text. -/
def Language.ParseError.shift (offset : Nat) (error : ParseError) : ParseError :=
  { error with position := error.position + offset }

/-- The parts of a statement text, with the byte offsets at which they start. -/
structure StatementParts where
  keyword : List Char
  keywordOffset : Nat
  operands : List Char
  operandsOffset : Nat

def StatementParts.ofChars (chars : List Char) : StatementParts :=
  let body := trimChars chars
  let keywordOffset := byteLength chars - byteLength (trimStart chars)
  let (keyword, operands) := (cutAtFirst isBlank body).getD (body, [])
  { keyword := keyword
    keywordOffset := keywordOffset
    operands := operands
    operandsOffset := keywordOffset + (byteLength body - byteLength operands) }

def singleSort (kind : SymbolKind) (offset : Nat) : List String → Except ParseError String
  | [] => .ok objectSort
  | [sortName] => .ok sortName
  | _ => .error ⟨offset, .tooManySorts kind.keyword⟩

/-- The argument sorts written after a name, or as many objects as the kind of symbol takes. -/
def domainOr (default : List String) (sorts : List String) : List String :=
  if sorts.isEmpty then default else sorts

/-- Builds a declaration from a name and the sorts written after it. -/
def Declaration.ofWords (kind : SymbolKind) (offset : Nat) (name : String)
    (sorts : List String) : Except ParseError Declaration :=
  match kind with
  | .sort => if sorts.isEmpty then .ok (.sort name) else .error ⟨offset, .sortTakesOnlyName⟩
  | .constant => (singleSort kind offset sorts).map (.constant name)
  | .var => (singleSort kind offset sorts).map (.var name)
  | .predicate => .ok (.predicate name (domainOr [objectSort] sorts))
  | .relation => .ok (.relation name (domainOr [objectSort, objectSort] sorts))

namespace Statement

def ofParts (parts : StatementParts) : Except ParseError Statement :=
  let keyword := String.ofList parts.keyword
  let offset := parts.operandsOffset
  if keyword == "assert" then
    match Formula.parse (String.ofList parts.operands) with
    | .ok formula => .ok (.assert formula)
    | .error error => .error (error.shift offset)
  else
    let words := blankSeparated parts.operands
    match words.find? (fun word => !isIdentifier word), words with
    | some word, _ => .error ⟨offset, .invalidIdentifier (String.ofList word)⟩
    | none, [] => .error ⟨offset, .missingName keyword⟩
    | none, name :: sorts =>
        match SymbolKind.ofKeyword? keyword with
        | none => .error ⟨parts.keywordOffset, .unknownKeyword keyword⟩
        | some kind =>
            (Declaration.ofWords kind offset (String.ofList name)
              (sorts.map String.ofList)).map .declare

def parse (text : String) : Except ParseError Statement :=
  ofParts (StatementParts.ofChars text.toList)

end Statement

end Ergo
