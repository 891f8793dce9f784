import Ergo.Proofs.Language.Derivation
import Ergo.Proofs.Language.Scanning

/-!
Written texts by what is read from them. A text writes an expression at a level of the grammar if it
spells tokens from which such an expression derives; each form of the grammar writes what it makes of
the expressions that its parts write.
-/

namespace Ergo.Language

/-- An expression of the level is read from the text, wherever it stands, and it is as described. -/
def Writes (level : Level) (text : String) (Means : Expression → Prop) : Prop :=
  ∃ lexemes, Spells text lexemes ∧ ∀ tokens : List Token, tokens.map Token.lexeme = lexemes →
    ∃ expression, Derives level tokens expression ∧ Means expression

namespace Writes

variable {level other : Level} {text first second : String}
  {Means FirstMeans SecondMeans : Expression → Prop}

theorem imp (writes : Writes level text FirstMeans)
    (implied : ∀ expression, FirstMeans expression → SecondMeans expression) :
    Writes level text SecondMeans := by
  obtain ⟨lexemes, spells, derives⟩ := writes
  refine ⟨lexemes, spells, fun tokens spelled => ?_⟩
  obtain ⟨expression, derives, means⟩ := derives tokens spelled
  exact ⟨expression, derives, implied expression means⟩

theorem weaken (writes : Writes level text Means) (below : other.power ≤ level.power) :
    Writes other text Means := by
  obtain ⟨lexemes, spells, derives⟩ := writes
  refine ⟨lexemes, spells, fun tokens spelled => ?_⟩
  obtain ⟨expression, derives, means⟩ := derives tokens spelled
  exact ⟨expression, derives.weaken below, means⟩

theorem ofAny (writes : Writes level text Means) : Writes .comparison text Means :=
  writes.weaken (by cases level <;> decide)

/-! ## Forms -/

theorem name {text : String} (identifier : IsIdentifier text) :
    Writes .unary text fun expression => ∃ position, expression = .name position text := by
  refine ⟨[.name text], spells_name identifier, fun tokens spelled => ?_⟩
  obtain ⟨⟨_, position⟩, rfl, rfl⟩ := List.map_eq_singleton_iff.mp spelled
  exact ⟨_, .name position text, position, rfl⟩

theorem number {value : Nat} (small : value ≤ maxMagnitude) :
    Writes .unary (toString value) fun expression =>
      ∃ position, expression = .number position value := by
  refine ⟨[.number value], spells_toString small, fun tokens spelled => ?_⟩
  obtain ⟨⟨_, position⟩, rfl, rfl⟩ := List.map_eq_singleton_iff.mp spelled
  exact ⟨_, .number position value, position, rfl⟩

theorem negate (writes : Writes .unary text Means) :
    Writes .unary ("-" ++ text) fun expression =>
      ∃ position operand, expression = .negate position operand ∧ Means operand := by
  obtain ⟨lexemes, spells, derives⟩ := writes
  refine ⟨.minus :: lexemes, fun rest after ends scans => ?_, fun tokens spelled => ?_⟩
  · have inner := spells rest after ends scans
    simpa using inner.sign (by decide) rfl
  · obtain ⟨⟨_, position⟩, later, rfl, rfl, laterSpelled⟩ := List.map_eq_cons_iff.mp spelled
    obtain ⟨operand, derives, means⟩ := derives later laterSpelled
    exact ⟨_, .negate position derives, position, operand, rfl, means⟩

theorem parenthesized (writes : Writes level text Means) :
    Writes .unary ("(" ++ text ++ ")") Means := by
  obtain ⟨lexemes, spells, derives⟩ := writes
  refine ⟨.leftParen :: (lexemes ++ [.rightParen]), fun rest after ends scans => ?_,
    fun tokens spelled => ?_⟩
  · have inner := spells (')' :: rest) (.rightParen :: after) (endsWord_cons (by decide))
      scans.rightParen
    simpa using inner.leftParen
  · obtain ⟨⟨_, opening⟩, _, rfl, rfl, fromInner⟩ := List.map_eq_cons_iff.mp spelled
    obtain ⟨inner, _, rfl, innerSpelled, fromClosing⟩ := List.map_eq_append_iff.mp fromInner
    obtain ⟨⟨_, closing⟩, rfl, rfl⟩ := List.map_eq_singleton_iff.mp fromClosing
    obtain ⟨expression, derives, means⟩ := derives inner innerSpelled
    exact ⟨_, .parenthesized opening closing derives.ofAny, means⟩

theorem joined {leftLevel rightLevel : Level} {between : String} {lexeme : Lexeme}
    {join : Nat → Expression → Expression → Expression} (isSign : IsSign between lexeme)
    (firstWrites : Writes leftLevel first FirstMeans)
    (secondWrites : Writes rightLevel second SecondMeans)
    (derives : ∀ position {leftTokens rightTokens left right}, Derives leftLevel leftTokens left →
      Derives rightLevel rightTokens right →
      Derives level (leftTokens ++ ⟨lexeme, position⟩ :: rightTokens) (join position left right)) :
    Writes level (first ++ between ++ second) fun expression =>
      ∃ position left right, expression = join position left right ∧
        FirstMeans left ∧ SecondMeans right := by
  obtain ⟨own, firstSpells, firstDerives⟩ := firstWrites
  obtain ⟨others, secondSpells, secondDerives⟩ := secondWrites
  refine ⟨own ++ lexeme :: others, firstSpells.joined isSign secondSpells, fun tokens spelled => ?_⟩
  obtain ⟨leftTokens, _, rfl, leftSpelled, fromSign⟩ := List.map_eq_append_iff.mp spelled
  obtain ⟨⟨_, position⟩, rightTokens, rfl, rfl, rightSpelled⟩ := List.map_eq_cons_iff.mp fromSign
  obtain ⟨left, leftDerives, leftMeans⟩ := firstDerives leftTokens leftSpelled
  obtain ⟨right, rightDerives, rightMeans⟩ := secondDerives rightTokens rightSpelled
  exact ⟨_, derives position leftDerives rightDerives, position, left, right, rfl, leftMeans,
    rightMeans⟩

theorem operate {operator : Operator} {between : String}
    (isSign : IsSign between operator.lexeme) (firstWrites : Writes operator.level first FirstMeans)
    (secondWrites : Writes operator.rightLevel second SecondMeans) :
    Writes operator.level (first ++ between ++ second) fun expression =>
      ∃ position left right, expression = .operate position operator left right ∧
        FirstMeans left ∧ SecondMeans right :=
  joined isSign firstWrites secondWrites fun position => .operate operator position

theorem compare (comparison : Comparison) (firstWrites : Writes .sum first FirstMeans)
    (secondWrites : Writes .sum second SecondMeans) :
    Writes .comparison (first ++ (" " ++ comparison.symbol ++ " ") ++ second) fun expression =>
      ∃ position left right, expression = .compare position comparison left right ∧
        FirstMeans left ∧ SecondMeans right :=
  joined (isSign_comparison comparison) firstWrites secondWrites
    fun position => .compare comparison position

/-! ## Whole texts -/

theorem exists_parse (writes : Writes level text Means) : ∃ expression, Means expression ∧
    parseExpression text = .ok expression ∧ parseExpressions text = .ok [expression] := by
  obtain ⟨lexemes, spells, derives⟩ := writes.ofAny
  obtain ⟨tokens, scanned, spelled⟩ := spells.scan
  obtain ⟨expression, derives, means⟩ := derives tokens spelled
  exact ⟨expression, means, parseExpression_eq_ok_iff.mpr ⟨tokens, scanned, derives⟩,
    parseExpressions_eq_ok_iff.mpr ⟨tokens, scanned, by simp, .single derives⟩⟩

end Writes

theorem isSign_operator (operator : Operator) :
    IsSign (" " ++ operator.symbol ++ " ") operator.lexeme := by
  cases operator with
  | add => exact .spaced '+' rfl (by decide) fun _ => rfl
  | subtract => exact .spaced '-' rfl (by decide) fun _ => rfl
  | multiply => exact .spaced '*' rfl (by decide) fun _ => rfl
  | divide => exact .spaced '/' rfl (by decide) fun _ => rfl

/-- A stroke without blanks, as between the two parts of a fraction. -/
theorem isSign_stroke : IsSign "/" Operator.divide.lexeme :=
  .tight '/' rfl (by decide) fun _ => rfl

end Ergo.Language
