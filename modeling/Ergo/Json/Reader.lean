import Ergo.Json.Token

/-!
Reading JSON. Values are read from tokens; each reader returns the tokens that it left, which are
fewer than those it was given.
-/

namespace Ergo.Json

/-- Tokens left after at least one was read. -/
abbrev Rest (tokens : List Token) :=
  { rest : List Token // rest.length < tokens.length }

mutual
def value? (tokens : List Token) : Option (Json × Rest tokens) :=
  match tokens with
  | .text text? :: rest => some (.string text?, ⟨rest, by simp⟩)
  | .atom value :: rest => some (value, ⟨rest, by simp⟩)
  | .sign .openBracket :: .sign .closeBracket :: rest =>
      some (.array [], ⟨rest, by simp only [List.length_cons]; omega⟩)
  | .sign .openBracket :: inner => do
      let (items, ⟨rest, shorter⟩) ← elements? inner
      return (.array items, ⟨rest, by simp only [List.length_cons]; omega⟩)
  | .sign .openBrace :: .sign .closeBrace :: rest =>
      some (.object [], ⟨rest, by simp only [List.length_cons]; omega⟩)
  | .sign .openBrace :: inner => do
      let (members, ⟨rest, shorter⟩) ← members? inner
      return (.object members, ⟨rest, by simp only [List.length_cons]; omega⟩)
  | _ => none
termination_by (tokens.length, 0)

/-- Values between commas up to and including the closing bracket. -/
def elements? (tokens : List Token) : Option (List Json × Rest tokens) := do
  let (first, ⟨afterFirst, shorter⟩) ← value? tokens
  match afterFirst, shorter with
  | .sign .comma :: more, shorter =>
      have moreShorter : more.length < tokens.length := by
        simp only [List.length_cons] at shorter
        omega
      let (others, ⟨rest, restShorter⟩) ← elements? more
      return (first :: others, ⟨rest, by omega⟩)
  | .sign .closeBracket :: rest, shorter =>
      return ([first], ⟨rest, by simp only [List.length_cons] at shorter; omega⟩)
  | _, _ => none
termination_by (tokens.length, 1)

/-- Named values between commas up to and including the closing brace. -/
def members? (tokens : List Token) : Option (List (Option String × Json) × Rest tokens) :=
  match tokens with
  | .text name? :: .sign .colon :: value => do
      let (first, ⟨afterFirst, shorter⟩) ← value? value
      match afterFirst, shorter with
      | .sign .comma :: more, shorter =>
          have moreShorter : more.length < value.length + 1 + 1 := by
            simp only [List.length_cons] at shorter
            omega
          let (others, ⟨rest, restShorter⟩) ← members? more
          return ((name?, first) :: others, ⟨rest, by simp only [List.length_cons]; omega⟩)
      | .sign .closeBrace :: rest, shorter =>
          return ([(name?, first)],
            ⟨rest, by simp only [List.length_cons] at shorter ⊢; omega⟩)
      | _, _ => none
  | _ => none
termination_by (tokens.length, 1)
end

def parse? (text : String) : Option Json := do
  let tokens ← scan? text.toList
  let (value, ⟨rest, _⟩) ← value? tokens
  if rest.isEmpty then some value else none

end Ergo.Json
