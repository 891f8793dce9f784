import Ergo.Proofs.Language.Derivation
import Ergo.Proofs.Language.Scanning
import Mathlib.Data.List.TakeWhile

/-!
Names in texts. The names of an expression are those of the tokens that it derives from, in their
order, and every name that is scanned is an identifier.
-/

namespace Ergo.Language

/-! ## Names of expressions -/

mutual
/-- The names of an expression, those of called functions among them, from left to right. -/
def Expression.names : Expression → List String
  | .name _ text => [text]
  | .number _ _ => []
  | .list _ items => itemsNames items
  | .call _ function arguments => function :: itemsNames arguments
  | .negate _ operand => operand.names
  | .operate _ _ left right => left.names ++ right.names
  | .compare _ _ left right => left.names ++ right.names

def itemsNames : List Expression → List String
  | [] => []
  | item :: items => item.names ++ itemsNames items
end

@[simp] theorem itemsNames_eq_flatMap (items : List Expression) :
    itemsNames items = items.flatMap Expression.names := by
  induction items with
  | nil => simp [itemsNames]
  | cons item items induction => simp [itemsNames, induction]

theorem names_subset_of_mem {item : Expression} {items : List Expression} {names : List String}
    (member : item ∈ items) (within : itemsNames items ⊆ names) : item.names ⊆ names := by
  intro name inside
  apply within
  rw [itemsNames_eq_flatMap]
  exact List.mem_flatMap_of_mem member inside

def Lexeme.name? : Lexeme → Option String
  | .name text => some text
  | _ => none

def tokenNames (tokens : List Token) : List String :=
  tokens.filterMap fun token => token.lexeme.name?

@[simp] theorem tokenNames_nil : tokenNames [] = [] := rfl

@[simp] theorem tokenNames_cons (token : Token) (tokens : List Token) :
    tokenNames (token :: tokens) = token.lexeme.name?.toList ++ tokenNames tokens := by
  cases named : token.lexeme.name? <;> simp [tokenNames, named]

@[simp] theorem tokenNames_append (tokens others : List Token) :
    tokenNames (tokens ++ others) = tokenNames tokens ++ tokenNames others := by
  simp [tokenNames]

theorem CommaSeparated.tokenNames_eq {parts : List (List Token)} {tokens : List Token}
    (separated : CommaSeparated parts tokens) : tokenNames tokens = parts.flatMap tokenNames := by
  induction separated with
  | nothing => rfl
  | single part => simp
  | cons position _ induction => simp [Lexeme.name?, induction]

theorem tokenNames_of_pieces {pieces : List (List Token × Expression)} {tokens : List Token}
    (each : ∀ piece ∈ pieces, piece.2.names = tokenNames piece.1)
    (separated : CommaSeparated (pieces.map Prod.fst) tokens) :
    (pieces.map Prod.snd).flatMap Expression.names = tokenNames tokens := by
  rw [separated.tokenNames_eq, List.flatMap_map, List.flatMap_map]
  exact List.flatMap_congr each

theorem Derives.names_eq {level : Level} {tokens : List Token} {expression : Expression}
    (derives : Derives level tokens expression) : expression.names = tokenNames tokens := by
  induction derives with
  | compare comparison position _ _ leftInduction rightInduction =>
      simp [Expression.names, leftInduction, rightInduction, Lexeme.name?]
  | operate operator position _ _ leftInduction rightInduction =>
      cases operator <;>
        simp [Expression.names, leftInduction, rightInduction, Operator.lexeme, Lexeme.name?]
  | ofSum _ induction | ofProduct _ induction | ofUnary _ induction => exact induction
  | negate position _ induction => simp [Expression.names, induction, Lexeme.name?]
  | number position value => rfl
  | name position text => rfl
  | call function position opening closing _ separated each =>
      simp [Expression.names, Lexeme.name?, tokenNames_of_pieces each separated]
  | parenthesized opening closing _ induction => simp [induction, Lexeme.name?]
  | list position closing _ separated each =>
      simp [Expression.names, Lexeme.name?, tokenNames_of_pieces each separated]

/-! ## Names that are scanned -/

theorem name?_of_sign? {char : Char} {rest : List Char} {lexeme : Lexeme} {width : Nat}
    (sign : sign? char rest = some (lexeme, width)) : lexeme.name? = none := by
  unfold sign? at sign
  dsimp only at sign
  split at sign
  all_goals try split at sign
  all_goals
    cases sign
    try rfl

theorem isIdentifier_of_scanFrom {position : Nat} {chars : List Char} {tokens : List Token}
    (scanned : scanFrom position chars = .ok tokens) :
    ∀ name ∈ tokenNames tokens, IsIdentifier name := by
  fun_induction scanFrom position chars generalizing tokens
  case case1 =>
    cases scanned
    simp
  case case2 induction => exact induction scanned
  case case3 | case6 => cases scanned
  case case4 induction =>
    obtain ⟨later, laterScanned, rfl⟩ := map_eq_ok_iff.mp scanned
    simpa [Lexeme.name?] using induction laterScanned
  case case5 char rest _ _ starts word induction =>
    obtain ⟨later, laterScanned, rfl⟩ := map_eq_ok_iff.mp scanned
    have identifier : IsIdentifier (String.ofList word) := by
      rw [IsIdentifier, String.toList_ofList]
      exact isIdentifier_cons_iff.mpr ⟨starts, fun char member => List.mem_takeWhile_imp member⟩
    simpa [Lexeme.name?] using ⟨identifier, induction laterScanned⟩
  case case7 sign induction =>
    obtain ⟨later, laterScanned, rfl⟩ := map_eq_ok_iff.mp scanned
    simpa [name?_of_sign? sign] using induction laterScanned

theorem isIdentifier_of_parseExpression {text : String} {expression : Expression}
    (read : parseExpression text = .ok expression) : ∀ name ∈ expression.names, IsIdentifier name := by
  obtain ⟨tokens, scanned, derives⟩ := parseExpression_eq_ok_iff.mp read
  rw [derives.names_eq]
  exact isIdentifier_of_scanFrom scanned

theorem isIdentifier_of_parseExpressions {text : String} {expressions : List Expression}
    (read : parseExpressions text = .ok expressions) :
    ∀ expression ∈ expressions, ∀ name ∈ expression.names, IsIdentifier name := by
  obtain ⟨tokens, scanned, -, pieces, each, separated, rfl⟩ := parseExpressions_eq_ok_iff.mp read
  have sameNames := tokenNames_of_pieces (fun piece member => (each piece member).names_eq) separated
  intro expression member name inside
  refine isIdentifier_of_scanFrom scanned name ?_
  rw [← sameNames]
  exact List.mem_flatMap.mpr ⟨expression, member, inside⟩

end Ergo.Language
