import Ergo.Proofs.Language.Derivation

/-!
Phrases: lexemes together with what is read from them. Tokens of a phrase derive an expression that it
means, wherever they stand in a text; calls and lists are phrases made of those between their commas.
-/

namespace Ergo.Language

/-- Lexemes, and what an expression must be to have been read from them. -/
structure Phrase where
  lexemes : List Lexeme
  Means : Expression → Prop

/-- An expression that the phrase means derives from its lexemes. -/
def Phrase.IsRead (phrase : Phrase) : Prop :=
  ∀ tokens : List Token, tokens.map Token.lexeme = phrase.lexemes →
    ∃ expression, Derives .comparison tokens expression ∧ phrase.Means expression

namespace Phrase

def name (text : String) : Phrase :=
  { lexemes := [.name text]
    Means := fun expression => ∃ position, expression = .name position text }

/-- The equality of two names. -/
def equality (left right : String) : Phrase :=
  { lexemes := [.name left, .compare .equal, .name right]
    Means := fun expression => ∃ position leftPosition rightPosition,
      expression = .compare position .equal (.name leftPosition left) (.name rightPosition right) }

def listed (phrases : List Phrase) : List Lexeme :=
  [Lexeme.comma].intercalate (phrases.map Phrase.lexemes)

theorem listed_cons_cons (phrase next : Phrase) (later : List Phrase) :
    listed (phrase :: next :: later) = phrase.lexemes ++ .comma :: listed (next :: later) := by
  simp [listed, List.intercalate_cons_cons]

/-- Each expression was read from the phrase in its place. -/
def AllMean : List Phrase → List Expression → Prop :=
  List.Forall₂ Phrase.Means

def call (function : String) (arguments : List Phrase) : Phrase :=
  { lexemes := .name function :: .leftParen :: (listed arguments ++ [.rightParen])
    Means := fun expression => ∃ position expressions,
      expression = .call position function expressions ∧ AllMean arguments expressions }

def bracketed (items : List Phrase) : Phrase :=
  { lexemes := .leftBracket :: (listed items ++ [.rightBracket])
    Means := fun expression => ∃ position expressions,
      expression = .list position expressions ∧ AllMean items expressions }

theorem isRead_name (text : String) : (name text).IsRead := by
  intro tokens spelled
  obtain ⟨⟨_, position⟩, rfl, rfl⟩ := List.map_eq_singleton_iff.mp spelled
  exact ⟨_, (Derives.name position text).ofAny, position, rfl⟩

theorem isRead_equality (left right : String) : (equality left right).IsRead := by
  intro tokens spelled
  obtain ⟨⟨_, leftPosition⟩, signed, rfl, rfl, fromSign⟩ := List.map_eq_cons_iff.mp spelled
  obtain ⟨⟨_, position⟩, last, rfl, rfl, fromRight⟩ := List.map_eq_cons_iff.mp fromSign
  obtain ⟨⟨_, rightPosition⟩, rfl, rfl⟩ := List.map_eq_singleton_iff.mp fromRight
  have leftDerives := (Derives.name leftPosition left).ofUnary.ofProduct
  have rightDerives := (Derives.name rightPosition right).ofUnary.ofProduct
  exact ⟨_, leftDerives.compare .equal position rightDerives, position, leftPosition, rightPosition,
    rfl⟩

/-! ## Lists of phrases -/

variable {phrases : List Phrase} {tokens : List Token}

theorem exists_derivesEach_of_listed (each : ∀ phrase ∈ phrases, phrase.IsRead)
    (spelled : tokens.map Token.lexeme = listed phrases) :
    ∃ expressions, DerivesEach tokens expressions ∧ AllMean phrases expressions := by
  induction phrases generalizing tokens with
  | nil =>
      obtain rfl : tokens = [] := by simpa [listed] using spelled
      exact ⟨[], ⟨[], by simp, .nothing, rfl⟩, .nil⟩
  | cons phrase phrases induction =>
      obtain ⟨isRead, laterRead⟩ := List.forall_mem_cons.mp each
      cases phrases with
      | nil =>
          obtain ⟨expression, derives, means⟩ := isRead tokens (by simpa [listed] using spelled)
          exact ⟨[expression], .single derives, .cons means .nil⟩
      | cons next phrases =>
          rw [listed, List.map_cons, List.map_cons, List.intercalate_cons_cons,
            List.append_assoc] at spelled
          obtain ⟨own, _, rfl, ownSpelled, fromComma⟩ := List.map_eq_append_iff.mp spelled
          obtain ⟨⟨_, position⟩, later, rfl, rfl, laterSpelled⟩ := List.map_eq_cons_iff.mp fromComma
          obtain ⟨expressions, derivesEach, allMean⟩ :=
            induction laterRead (by simpa [listed] using laterSpelled)
          obtain ⟨expression, derives, means⟩ := isRead own ownSpelled
          have nonempty : expressions ≠ [] := by
            rintro rfl
            cases allMean
          exact ⟨expression :: expressions, derivesEach.cons position nonempty derives,
            .cons means allMean⟩

theorem isRead_call (function : String) (each : ∀ phrase ∈ phrases, phrase.IsRead) :
    (call function phrases).IsRead := by
  intro tokens spelled
  obtain ⟨⟨_, position⟩, _, rfl, rfl, fromOpening⟩ := List.map_eq_cons_iff.mp spelled
  obtain ⟨⟨_, opening⟩, _, rfl, rfl, fromList⟩ := List.map_eq_cons_iff.mp fromOpening
  obtain ⟨inner, _, rfl, innerSpelled, fromClosing⟩ := List.map_eq_append_iff.mp fromList
  obtain ⟨⟨_, closing⟩, rfl, rfl⟩ := List.map_eq_singleton_iff.mp fromClosing
  obtain ⟨_, ⟨pieces, derives, separated, rfl⟩, allMean⟩ :=
    exists_derivesEach_of_listed each innerSpelled
  exact ⟨_, (Derives.call function position opening closing derives separated).ofAny, position, _,
    rfl, allMean⟩

theorem isRead_bracketed (each : ∀ phrase ∈ phrases, phrase.IsRead) :
    (bracketed phrases).IsRead := by
  intro tokens spelled
  obtain ⟨⟨_, position⟩, _, rfl, rfl, fromList⟩ := List.map_eq_cons_iff.mp spelled
  obtain ⟨inner, _, rfl, innerSpelled, fromClosing⟩ := List.map_eq_append_iff.mp fromList
  obtain ⟨⟨_, closing⟩, rfl, rfl⟩ := List.map_eq_singleton_iff.mp fromClosing
  obtain ⟨_, ⟨pieces, derives, separated, rfl⟩, allMean⟩ :=
    exists_derivesEach_of_listed each innerSpelled
  exact ⟨_, (Derives.list position closing derives separated).ofAny, position, _, rfl, allMean⟩

end Phrase

end Ergo.Language
