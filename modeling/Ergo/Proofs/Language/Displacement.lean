import Ergo.Proofs.Language.Derivation
import Ergo.Proofs.Language.Scanning

/-!
Texts that are put together. What is scanned at the start of a text is scanned in the same way when
other text follows after a comma, and what is scanned and read from the later text changes only in
the positions that it carries. Main statement: two lists of expressions with a comma between them are
read as the expressions of both (`parseExpressions_append`).
-/

namespace Ergo.Language

/-! ## Scanning in front of other text -/

section Scanning

variable {chars later : List Char}

/-- The text goes on with nothing that is part of what ends in front of it. -/
structure Separates (later : List Char) : Prop where
  endsWord : EndsWord later
  noEqual : ∀ char ∈ later.head?, char ≠ '='

theorem separates_comma (later : List Char) : Separates (',' :: later) where
  endsWord := endsWord_cons (by decide)
  noEqual := by simp

theorem sign?_append (char : Char) (chars : List Char) (separates : Separates later) :
    sign? char (chars ++ later) = sign? char chars := by
  have sameStart : ((chars ++ later).head? == some '=') = (chars.head? == some '=') := by
    cases chars with
    | nil =>
        cases later with
        | nil => rfl
        | cons first later => simpa using separates.noEqual first rfl
    | cons first chars => rfl
  unfold sign?
  rw [sameStart]

/-- A sign takes at least one character, and no more than there are. -/
theorem width_of_sign? {char : Char} {lexeme : Lexeme} {width : Nat}
    (isSign : sign? char chars = some (lexeme, width)) : 1 ≤ width ∧ width - 1 ≤ chars.length := by
  have widths : width = 1 ∨ width = 2 ∧ chars.head? = some '=' := by
    unfold sign? at isSign
    dsimp only at isSign
    split at isSign <;> grind
  rcases widths with rfl | ⟨rfl, followed⟩
  · simp
  · obtain ⟨later, rfl⟩ := List.head?_eq_some_iff.mp followed
    simp

theorem map_append_map_cons (token : Token) (own : List Token)
    (result : Except ParseError (List Token)) :
    (result.map (own ++ ·)).map (token :: ·) = result.map ((token :: own) ++ ·) := by
  cases result <;> rfl

theorem length_cons_takeWhile_add_dropWhile (keep : Char → Bool) (char : Char) (chars : List Char) :
    (char :: chars.takeWhile keep).length + (chars.dropWhile keep).length =
      (char :: chars).length := by
  rw [← List.length_append, List.cons_append, List.takeWhile_append_dropWhile]

/-- What is scanned from a text is scanned in front of any text that its end does not go on into. -/
theorem scanFrom_append {position : Nat} {tokens : List Token}
    (scanned : scanFrom position chars = .ok tokens) (separates : Separates later) :
    scanFrom position (chars ++ later) =
      (scanFrom (position + chars.length) later).map (tokens ++ ·) := by
  fun_induction scanFrom position chars generalizing tokens
  case case1 position =>
    cases scanned
    rw [List.nil_append, List.length_nil, Nat.add_zero]
    cases scanFrom position later <;> rfl
  case case2 position char rest space induction =>
    rw [List.cons_append, scanFrom, if_pos space, induction scanned, List.length_cons,
      Nat.add_assoc, Nat.add_comm 1]
  case case3 | case6 => cases scanned
  case case4 position char rest noSpace inNumber digits value read induction =>
    obtain ⟨own, ownScanned, rfl⟩ := map_eq_ok_iff.mp scanned
    have stops := fun char isFirst => (separates.endsWord char isFirst).2
    rw [List.cons_append, scanFrom, if_neg noSpace, if_pos inNumber,
      takeWhile_append_of_stops rest stops, dropWhile_append_of_stops rest stops]
    simp only [read, digits, induction ownScanned, map_append_map_cons, Nat.add_assoc,
      length_cons_takeWhile_add_dropWhile]
  case case5 position char rest noSpace noNumber starts word induction =>
    obtain ⟨own, ownScanned, rfl⟩ := map_eq_ok_iff.mp scanned
    have stops := fun char isFirst => (separates.endsWord char isFirst).1
    rw [List.cons_append, scanFrom, if_neg noSpace, if_neg noNumber, if_pos starts,
      takeWhile_append_of_stops rest stops, dropWhile_append_of_stops rest stops]
    simp only [word, induction ownScanned, map_append_map_cons, Nat.add_assoc,
      length_cons_takeWhile_add_dropWhile]
  case case7 position char rest noSpace noNumber noName lexeme width isSign induction =>
    obtain ⟨own, ownScanned, rfl⟩ := map_eq_ok_iff.mp scanned
    obtain ⟨positive, within⟩ := width_of_sign? isSign
    have reached : position + width + (rest.drop (width - 1)).length =
        position + (char :: rest).length := by
      rw [List.length_drop, List.length_cons]
      omega
    rw [List.cons_append, scanFrom, if_neg noSpace, if_neg noNumber, if_neg noName,
      sign?_append char rest separates, isSign]
    simp only [List.drop_append_of_le_length within, induction ownScanned, map_append_map_cons,
      reached]

theorem scanFrom_comma (position : Nat) (later : List Char) :
    scanFrom position (',' :: later) =
      (scanFrom (position + 1) later).map (⟨.comma, position⟩ :: ·) := by
  rw [scanFrom]
  rfl

end Scanning

/-! ## Positions -/

/-- The token at another place. -/
def Token.reposition (change : Nat → Nat) (token : Token) : Token :=
  { token with position := change token.position }

mutual
/-- The expression with all of its positions changed. -/
def Expression.reposition (change : Nat → Nat) : Expression → Expression
  | .name position text => .name (change position) text
  | .number position value => .number (change position) value
  | .list position items => .list (change position) (repositionEach change items)
  | .call position function arguments =>
      .call (change position) function (repositionEach change arguments)
  | .negate position operand => .negate (change position) (operand.reposition change)
  | .operate position operator left right =>
      .operate (change position) operator (left.reposition change) (right.reposition change)
  | .compare position comparison left right =>
      .compare (change position) comparison (left.reposition change) (right.reposition change)

def repositionEach (change : Nat → Nat) : List Expression → List Expression
  | [] => []
  | item :: items => item.reposition change :: repositionEach change items
end

@[simp] theorem repositionEach_eq_map (change : Nat → Nat) (items : List Expression) :
    repositionEach change items = items.map (Expression.reposition change) := by
  induction items with
  | nil => rfl
  | cons item items induction => rw [repositionEach, induction, List.map_cons]

variable {change : Nat → Nat}

/-- Tokens of a text that stands further on are the same, further on. -/
theorem scanFrom_add {position : Nat} {chars : List Char} {tokens : List Token}
    (scanned : scanFrom position chars = .ok tokens) (offset : Nat) :
    scanFrom (position + offset) chars = .ok (tokens.map (Token.reposition (· + offset))) := by
  fun_induction scanFrom position chars generalizing tokens
  case case1 =>
    cases scanned
    rw [scanFrom]
    rfl
  case case2 position char rest space induction =>
    rw [scanFrom, if_pos space, Nat.add_right_comm, induction scanned]
  case case3 | case6 => cases scanned
  case case4 position char rest noSpace inNumber digits value read induction =>
    obtain ⟨own, ownScanned, rfl⟩ := map_eq_ok_iff.mp scanned
    rw [scanFrom, if_neg noSpace, if_pos inNumber]
    simp only [digits] at read ownScanned induction
    simp only [read, Nat.add_right_comm position offset, induction ownScanned]
    rfl
  case case5 position char rest noSpace noNumber starts word induction =>
    obtain ⟨own, ownScanned, rfl⟩ := map_eq_ok_iff.mp scanned
    rw [scanFrom, if_neg noSpace, if_neg noNumber, if_pos starts]
    simp only [word] at ownScanned induction
    simp only [Nat.add_right_comm position offset, induction ownScanned]
    rfl
  case case7 position char rest noSpace noNumber noName lexeme width isSign induction =>
    obtain ⟨own, ownScanned, rfl⟩ := map_eq_ok_iff.mp scanned
    rw [scanFrom, if_neg noSpace, if_neg noNumber, if_neg noName, isSign]
    simp only [Nat.add_right_comm position offset, induction ownScanned]
    rfl

theorem CommaSeparated.reposition {parts : List (List Token)} {tokens : List Token}
    (separated : CommaSeparated parts tokens) :
    CommaSeparated (parts.map (List.map (Token.reposition change)))
      (tokens.map (Token.reposition change)) := by
  induction separated with
  | nothing => exact .nothing
  | single part => exact .single _
  | cons position separated induction =>
      rw [List.map_append]
      exact .cons (change position) induction

/-- A piece of a list, with all of its positions changed. -/
def repositionPiece (change : Nat → Nat) (piece : List Token × Expression) :
    List Token × Expression :=
  (piece.1.map (Token.reposition change), piece.2.reposition change)

theorem CommaSeparated.repositionPieces {pieces : List (List Token × Expression)}
    {tokens : List Token} (separated : CommaSeparated (pieces.map Prod.fst) tokens) :
    CommaSeparated ((pieces.map (repositionPiece change)).map Prod.fst)
      (tokens.map (Token.reposition change)) := by
  have sameParts : (pieces.map (repositionPiece change)).map Prod.fst =
      (pieces.map Prod.fst).map (List.map (Token.reposition change)) := by
    rw [List.map_map, List.map_map]
    rfl
  rw [sameParts]
  exact separated.reposition

theorem map_snd_repositionPieces (pieces : List (List Token × Expression)) :
    (pieces.map (repositionPiece change)).map Prod.snd =
      (pieces.map Prod.snd).map (Expression.reposition change) := by
  rw [List.map_map, List.map_map]
  rfl

/-- What derives is the same wherever its tokens stand. -/
theorem Derives.reposition {level : Level} {tokens : List Token} {expression : Expression}
    (derives : Derives level tokens expression) :
    Derives level (tokens.map (Token.reposition change)) (expression.reposition change) := by
  induction derives with
  | compare comparison position _ _ leftInduction rightInduction =>
      rw [List.map_append]
      exact .compare comparison _ leftInduction rightInduction
  | operate operator position _ _ leftInduction rightInduction =>
      rw [List.map_append]
      exact .operate operator _ leftInduction rightInduction
  | ofSum _ induction => exact .ofSum induction
  | ofProduct _ induction => exact .ofProduct induction
  | ofUnary _ induction => exact .ofUnary induction
  | negate position _ induction => exact .negate _ induction
  | number position value => exact .number _ value
  | name position text => exact .name _ text
  | call function position opening closing _ separated each =>
      rw [Expression.reposition, repositionEach_eq_map, ← map_snd_repositionPieces, List.map_cons,
        List.map_cons, List.map_append]
      exact .call function _ _ _ (List.forall_mem_map.mpr each) separated.repositionPieces
  | parenthesized opening closing _ induction =>
      rw [List.map_cons, List.map_append]
      exact .parenthesized _ _ induction
  | list position closing _ separated each =>
      rw [Expression.reposition, repositionEach_eq_map, ← map_snd_repositionPieces, List.map_cons,
        List.map_append]
      exact .list _ _ (List.forall_mem_map.mpr each) separated.repositionPieces

theorem DerivesEach.reposition {tokens : List Token} {expressions : List Expression}
    (each : DerivesEach tokens expressions) :
    DerivesEach (tokens.map (Token.reposition change))
      (expressions.map (Expression.reposition change)) := by
  obtain ⟨pieces, derives, separated, rfl⟩ := each
  refine ⟨pieces.map (repositionPiece change), ?_, separated.repositionPieces,
    map_snd_repositionPieces pieces⟩
  rw [List.forall_mem_map]
  exact fun piece member => (derives piece member).reposition

/-! ## Lists with a comma between them -/

theorem CommaSeparated.append {parts others : List (List Token)} {tokens otherTokens : List Token}
    (separated : CommaSeparated parts tokens) (nonempty : parts ≠ []) (position : Nat)
    (otherSeparated : CommaSeparated others otherTokens) (otherNonempty : others ≠ []) :
    CommaSeparated (parts ++ others) (tokens ++ ⟨.comma, position⟩ :: otherTokens) := by
  induction separated with
  | nothing => exact absurd rfl nonempty
  | single part =>
      obtain ⟨next, later, rfl⟩ := List.exists_cons_of_ne_nil otherNonempty
      exact .cons position otherSeparated
  | cons ownPosition _ induction =>
      rw [List.append_assoc, List.cons_append]
      exact .cons ownPosition (induction (by simp))

theorem DerivesEach.append {tokens otherTokens : List Token} {expressions others : List Expression}
    (each : DerivesEach tokens expressions) (nonempty : expressions ≠ []) (position : Nat)
    (otherEach : DerivesEach otherTokens others) (otherNonempty : others ≠ []) :
    DerivesEach (tokens ++ ⟨.comma, position⟩ :: otherTokens) (expressions ++ others) := by
  obtain ⟨pieces, derives, separated, rfl⟩ := each
  obtain ⟨otherPieces, otherDerives, otherSeparated, rfl⟩ := otherEach
  refine ⟨pieces ++ otherPieces, List.forall_mem_append.mpr ⟨derives, otherDerives⟩, ?_,
    List.map_append⟩
  rw [List.map_append]
  exact separated.append (by simpa using nonempty) position otherSeparated (by simpa using otherNonempty)

/-- Two texts with a comma between them are read as the expressions of the first and those of the
second, which stand further on. -/
theorem parseExpressions_append {first second : String} {expressions others : List Expression}
    (firstRead : parseExpressions first = .ok expressions)
    (secondRead : parseExpressions second = .ok others) :
    parseExpressions (first ++ "," ++ second) =
      .ok (expressions ++
        others.map (Expression.reposition (· + (first.toList.length + 1)))) := by
  obtain ⟨tokens, scanned, nonempty, each⟩ := parseExpressions_eq_ok_iff.mp firstRead
  obtain ⟨otherTokens, otherScanned, otherNonempty, otherEach⟩ :=
    parseExpressions_eq_ok_iff.mp secondRead
  rw [parseExpressions_eq_ok_iff]
  have moved : scanFrom (first.toList.length + 1) second.toList =
      .ok (otherTokens.map (Token.reposition (· + (first.toList.length + 1)))) := by
    have fromStart := scanFrom_add otherScanned (first.toList.length + 1)
    rwa [Nat.zero_add] at fromStart
  have both : scan (first ++ "," ++ second) =
      .ok (tokens ++ ⟨.comma, first.toList.length⟩ ::
        otherTokens.map (Token.reposition (· + (first.toList.length + 1)))) := by
    have written : (first ++ "," ++ second).toList = first.toList ++ ',' :: second.toList := by
      simp
    rw [scan, written, scanFrom_append scanned (separates_comma _), scanFrom_comma, Nat.zero_add,
      moved]
    rfl
  exact ⟨_, both, by simp [nonempty],
    each.append nonempty _ otherEach.reposition (by simpa using otherNonempty)⟩

end Ergo.Language
