import Ergo.Language.Keyword
import Ergo.Language.Token
import Ergo.Proofs.Text.Words
import Mathlib.Data.List.TakeWhile

/-!
Scanning of written texts. A piece of text spells lexemes if it is scanned into them in front of any
text that does not go on with the word it ends in; where tokens stand is left open.
-/

namespace Ergo.Language

open Ergo.Text

/-! ## Characters of words -/

section Characters

variable {char : Char}

theorem isNamePart_of_isNameStart (starts : isNameStart char = true) : isNamePart char = true := by
  simp only [isNameStart, isNamePart, Char.isAlphanum, Bool.or_eq_true] at starts ⊢
  exact starts.imp_left .inl

theorem toNat_of_isNamePart (inName : isNamePart char = true) :
    0x30 ≤ char.toNat ∧ char.toNat ≤ 0x7A := by
  simp only [isNamePart, Char.isAlphanum, isAlpha_iff, Bool.or_eq_true, isUpper_iff, isLower_iff,
    isDigit_iff, beq_iff_eq] at inName
  rcases inName with alphanumeric | rfl
  · omega
  · decide

theorem isBlank_of_isNamePart (inName : isNamePart char = true) : isBlank char = false := by
  have bounds := toNat_of_isNamePart inName
  simp only [isBlank, Bool.or_eq_false_iff, Bool.and_eq_false_iff, decide_eq_false_iff_not,
    beq_eq_false_iff_ne]
  omega

theorem isNamePart_eq_false (notNumber : isNumberPart char = false)
    (notStart : isNameStart char = false) : isNamePart char = false := by
  simp only [isNumberPart, isNameStart, isNamePart, Char.isAlphanum, Bool.or_eq_false_iff] at *
  exact ⟨⟨notStart.1, notNumber.1⟩, notStart.2⟩

theorem isSpace_of_isNamePart (inName : isNamePart char = true) : isSpace char = false := by
  cases space : isSpace char with
  | false => rfl
  | true =>
      simp only [isSpace, Bool.or_eq_true, beq_iff_eq] at space
      rcases space with (((rfl | rfl) | rfl) | rfl) | rfl <;> exact absurd inName (by decide)

theorem isNumberPart_of_isNameStart (starts : isNameStart char = true) :
    isNumberPart char = false := by
  cases inNumber : isNumberPart char with
  | false => rfl
  | true =>
      simp only [isNameStart, isNumberPart, isAlpha_iff, Bool.or_eq_true, isUpper_iff, isLower_iff,
        isDigit_iff, beq_iff_eq] at starts inNumber
      rcases inNumber with digit | rfl
      · rcases starts with alpha | rfl
        · omega
        · exact absurd digit (by decide)
      · exact absurd starts (by decide)

end Characters

theorem isIdentifier_cons_iff {first : Char} {rest : List Char} :
    isIdentifier (first :: rest) = true ↔
      isNameStart first = true ∧ ∀ char ∈ rest, isNamePart char = true := by
  simp [isIdentifier]

theorem all_isNamePart_of_isIdentifier {word : List Char} (identifier : isIdentifier word = true) :
    ∀ char ∈ word, isNamePart char = true := by
  cases word with
  | nil => simp
  | cons first rest =>
      obtain ⟨starts, parts⟩ := isIdentifier_cons_iff.mp identifier
      intro char member
      rcases List.mem_cons.mp member with rfl | inRest
      · exact isNamePart_of_isNameStart starts
      · exact parts char inRest

/-! ## Names -/

def IsIdentifier (name : String) : Prop :=
  isIdentifier name.toList = true

instance : DecidablePred IsIdentifier := fun name =>
  inferInstanceAs (Decidable (isIdentifier name.toList = true))

/-- The name has no meaning of its own in the language. -/
def IsUnreserved (name : String) : Prop :=
  isReserved name = false

instance : DecidablePred IsUnreserved := fun name =>
  inferInstanceAs (Decidable (isReserved name = false))

theorem isIdentifier_keyword (keyword : Keyword) : IsIdentifier keyword.text := by
  cases keyword <;> decide

theorem ofText?_eq_none_iff {name : String} :
    Keyword.ofText? name = none ↔ IsUnreserved name := by
  simp [IsUnreserved, isReserved]

theorem IsIdentifier.ne_nil {name : String} (identifier : IsIdentifier name) : name.toList ≠ [] := by
  intro empty
  rw [IsIdentifier, empty] at identifier
  exact absurd identifier (by decide)

theorem IsIdentifier.not_blank {name : String} (identifier : IsIdentifier name) :
    ∀ char ∈ name.toList, isBlank char = false :=
  fun char member => isBlank_of_isNamePart (all_isNamePart_of_isIdentifier identifier char member)

/-! ## Lexemes of a text -/

def Scans (chars : List Char) (lexemes : List Lexeme) : Prop :=
  ∀ position, ∃ tokens, scanFrom position chars = .ok tokens ∧
    tokens.map Token.lexeme = lexemes

/-- The text does not go on with a word or number that ends in front of it. -/
def EndsWord (chars : List Char) : Prop :=
  ∀ char ∈ chars.head?, isNamePart char = false ∧ isNumberPart char = false

variable {chars rest : List Char} {lexemes : List Lexeme}

theorem scans_nil : Scans [] [] := by
  intro position
  exact ⟨[], by rw [scanFrom], rfl⟩

theorem endsWord_nil : EndsWord [] := by
  simp [EndsWord]

theorem endsWord_cons {char : Char} (outside : isNamePart char = false ∧ isNumberPart char = false) :
    EndsWord (char :: rest) := by
  intro first isFirst
  exact Option.some.inj isFirst ▸ outside

theorem endsWord_space : EndsWord (' ' :: rest) :=
  endsWord_cons (by decide)

theorem Scans.space (scans : Scans chars lexemes) : Scans (' ' :: chars) lexemes := by
  intro position
  rw [scanFrom]
  exact scans (position + 1)

theorem Scans.wideSign {char : Char} {lexeme : Lexeme} {width : Nat}
    (isSign : isSpace char = false ∧ isNumberPart char = false ∧ isNameStart char = false)
    (sign : sign? char chars = some (lexeme, width))
    (scans : Scans (chars.drop (width - 1)) lexemes) : Scans (char :: chars) (lexeme :: lexemes) := by
  intro position
  obtain ⟨tokens, scanned, spelled⟩ := scans (position + width)
  refine ⟨⟨lexeme, position⟩ :: tokens, ?_, by rw [List.map_cons, spelled]⟩
  rw [scanFrom]
  simp [isSign, sign, scanned, Except.map]

theorem Scans.sign {char : Char} {lexeme : Lexeme}
    (isSign : isSpace char = false ∧ isNumberPart char = false ∧ isNameStart char = false)
    (sign : sign? char chars = some (lexeme, 1)) (scans : Scans chars lexemes) :
    Scans (char :: chars) (lexeme :: lexemes) :=
  Scans.wideSign isSign sign scans

theorem Scans.leftParen (scans : Scans chars lexemes) :
    Scans ('(' :: chars) (.leftParen :: lexemes) :=
  scans.sign (by decide) rfl

theorem Scans.rightParen (scans : Scans chars lexemes) :
    Scans (')' :: chars) (.rightParen :: lexemes) :=
  scans.sign (by decide) rfl

theorem Scans.leftBracket (scans : Scans chars lexemes) :
    Scans ('[' :: chars) (.leftBracket :: lexemes) :=
  scans.sign (by decide) rfl

theorem Scans.rightBracket (scans : Scans chars lexemes) :
    Scans (']' :: chars) (.rightBracket :: lexemes) :=
  scans.sign (by decide) rfl

theorem Scans.comma (scans : Scans chars lexemes) : Scans (',' :: chars) (.comma :: lexemes) :=
  scans.sign (by decide) rfl

theorem Scans.equal (scans : Scans chars lexemes) :
    Scans ('=' :: '=' :: chars) (.compare .equal :: lexemes) :=
  Scans.wideSign (by decide) rfl scans

theorem takeWhile_append_of_stops {keep : Char → Bool} (chars : List Char)
    (stops : ∀ char ∈ rest.head?, keep char = false) :
    (chars ++ rest).takeWhile keep = chars.takeWhile keep := by
  induction chars with
  | nil =>
      cases rest with
      | nil => rfl
      | cons char rest => simp [stops char rfl]
  | cons char chars induction =>
      rw [List.cons_append, List.takeWhile_cons, List.takeWhile_cons, induction]

theorem dropWhile_append_of_stops {keep : Char → Bool} (chars : List Char)
    (stops : ∀ char ∈ rest.head?, keep char = false) :
    (chars ++ rest).dropWhile keep = chars.dropWhile keep ++ rest := by
  induction chars with
  | nil =>
      cases rest with
      | nil => rfl
      | cons char rest => simp [stops char rfl]
  | cons char chars induction =>
      rw [List.cons_append, List.dropWhile_cons, List.dropWhile_cons, induction]
      split <;> rfl

theorem takeWhile_append_of_head? {keep : Char → Bool} {word : List Char}
    (parts : ∀ char ∈ word, keep char = true) (ends : ∀ char ∈ rest.head?, keep char = false) :
    (word ++ rest).takeWhile keep = word := by
  rw [takeWhile_append_of_stops word ends, List.takeWhile_eq_self_iff.mpr parts]

theorem dropWhile_append_of_head? {keep : Char → Bool} {word : List Char}
    (parts : ∀ char ∈ word, keep char = true) (ends : ∀ char ∈ rest.head?, keep char = false) :
    (word ++ rest).dropWhile keep = rest := by
  rw [dropWhile_append_of_stops word ends, List.dropWhile_eq_nil_iff.mpr parts, List.nil_append]

theorem Scans.word {word : List Char} (identifier : isIdentifier word = true) (ends : EndsWord rest)
    (scans : Scans rest lexemes) :
    Scans (word ++ rest) (.name (String.ofList word) :: lexemes) := by
  cases word with
  | nil => exact absurd identifier (by decide)
  | cons first word =>
      obtain ⟨starts, parts⟩ := isIdentifier_cons_iff.mp identifier
      have notSpace := isSpace_of_isNamePart (isNamePart_of_isNameStart starts)
      have outside := fun char isFirst => (ends char isFirst).1
      intro position
      obtain ⟨tokens, scanned, spelled⟩ := scans (position + (first :: word).length)
      refine ⟨⟨.name (String.ofList (first :: word)), position⟩ :: tokens, ?_,
        by rw [List.map_cons, spelled]⟩
      rw [List.cons_append, scanFrom]
      simp only [notSpace, isNumberPart_of_isNameStart starts, starts, Bool.false_eq_true, if_false,
        if_true, takeWhile_append_of_head? parts outside, dropWhile_append_of_head? parts outside,
        scanned]
      rfl

/-! ## Pieces of text -/

/-- The text is scanned into these lexemes, whatever follows that does not go on with its last word. -/
def Spells (text : String) (own : List Lexeme) : Prop :=
  ∀ rest lexemes, EndsWord rest → Scans rest lexemes → Scans (text.toList ++ rest) (own ++ lexemes)

theorem Spells.scan {text : String} {own : List Lexeme} (spells : Spells text own) :
    ∃ tokens, scan text = .ok tokens ∧ tokens.map Token.lexeme = own := by
  have scans := spells [] [] endsWord_nil scans_nil
  rw [List.append_nil, List.append_nil] at scans
  exact scans 0

theorem spells_name {name : String} (identifier : IsIdentifier name) :
    Spells name [.name name] := by
  intro rest lexemes ends scans
  have word := scans.word identifier ends
  rw [String.ofList_toList] at word
  exact word

/-! ## Signs between pieces -/

/-- The text is scanned into one sign, blanks around it left out, and ends any word before it. -/
structure IsSign (between : String) (lexeme : Lexeme) : Prop where
  endsWord : ∀ rest, EndsWord (between.toList ++ rest)
  scans : ∀ {rest lexemes}, Scans rest lexemes → Scans (between.toList ++ rest) (lexeme :: lexemes)

section Sign

variable {symbol : String} {lexeme : Lexeme} (char : Char) (isSymbol : symbol.toList = [char])
  (isSign : isSpace char = false ∧ isNumberPart char = false ∧ isNameStart char = false)
  (sign : ∀ rest, sign? char rest = some (lexeme, 1))

include isSymbol isSign sign

theorem IsSign.tight : IsSign symbol lexeme where
  endsWord _ := by
    obtain ⟨-, notNumber, notStart⟩ := isSign
    rw [isSymbol]
    exact endsWord_cons ⟨isNamePart_eq_false notNumber notStart, notNumber⟩
  scans scans := by
    rw [isSymbol]
    exact scans.sign isSign (sign _)

theorem IsSign.spaced : IsSign (" " ++ symbol ++ " ") lexeme where
  endsWord _ := by simpa using endsWord_space
  scans scans := by
    have whole := (scans.space.sign isSign (sign _)).space
    simpa [isSymbol] using whole

end Sign

theorem Scans.comparison (comparison : Comparison) (scans : Scans rest lexemes) :
    Scans (comparison.symbol.toList ++ ' ' :: rest) (.compare comparison :: lexemes) := by
  cases comparison <;> exact Scans.wideSign (by decide) rfl scans.space

theorem isSign_comparison (comparison : Comparison) :
    IsSign (" " ++ comparison.symbol ++ " ") (.compare comparison) where
  endsWord _ := by simpa using endsWord_space
  scans scans := by simpa using (scans.comparison comparison).space

theorem Spells.joined {first second between : String} {own others : List Lexeme} {lexeme : Lexeme}
    (firstSpells : Spells first own) (isSign : IsSign between lexeme)
    (secondSpells : Spells second others) :
    Spells (first ++ between ++ second) (own ++ lexeme :: others) := by
  intro rest lexemes ends scans
  have whole := firstSpells _ _ (isSign.endsWord _)
    (isSign.scans (secondSpells rest lexemes ends scans))
  simpa using whole

/-! ## Numbers -/

section Numbers

variable {digits : List Char} {char : Char} {value : Rat}

theorem isSpace_of_isNumberPart (inNumber : isNumberPart char = true) : isSpace char = false := by
  cases space : isSpace char with
  | false => rfl
  | true =>
      simp only [isSpace, Bool.or_eq_true, beq_iff_eq] at space
      rcases space with (((rfl | rfl) | rfl) | rfl) | rfl <;> exact absurd inNumber (by decide)

theorem Scans.number (nonempty : digits ≠ []) (parts : ∀ char ∈ digits, isNumberPart char = true)
    (read : readNumber digits = .ok value) (ends : EndsWord rest) (scans : Scans rest lexemes) :
    Scans (digits ++ rest) (.number value :: lexemes) := by
  obtain ⟨first, digits, rfl⟩ := List.exists_cons_of_ne_nil nonempty
  obtain ⟨firstPart, laterParts⟩ := List.forall_mem_cons.mp parts
  have outside := fun char isFirst => (ends char isFirst).2
  intro position
  obtain ⟨tokens, scanned, spelled⟩ := scans (position + (first :: digits).length)
  refine ⟨⟨.number value, position⟩ :: tokens, ?_, by rw [List.map_cons, spelled]⟩
  rw [List.cons_append, scanFrom]
  simp only [isSpace_of_isNumberPart firstPart, firstPart, Bool.false_eq_true, if_false, if_true,
    takeWhile_append_of_head? laterParts outside, dropWhile_append_of_head? laterParts outside, read,
    scanned]
  rfl

theorem isDigit_of_mem_toDigits {number : Nat} (member : char ∈ Nat.toDigits 10 number) :
    char.isDigit = true :=
  Nat.isDigit_of_mem_toDigits (by decide) (by decide) member

theorem digitsValue_toDigits (number : Nat) : digitsValue (Nat.toDigits 10 number) = number := by
  have value : Nat.ofDigitChars 10 (Nat.toDigits 10 number) 0 = number :=
    Nat.ofDigitChars_toDigits (by decide) (by decide)
  exact Nat.ofDigitChars_eq_foldl.symm.trans value

theorem readNumber_toDigits {number : Nat} (small : number ≤ maxMagnitude) :
    readNumber (Nat.toDigits 10 number) = .ok (number : Rat) := by
  have noPoint : cutAtFirst (· == '.') (Nat.toDigits 10 number) = none := by
    refine cutAtFirst_eq_none fun char member => ?_
    rw [beq_eq_false_iff_ne]
    rintro rfl
    exact absurd (isDigit_of_mem_toDigits member) (by decide)
  have someDigit : (Nat.toDigits 10 number).isEmpty = false := by
    simp [Nat.toDigits_ne_nil]
  have scale : Nat.pow 10 0 ≤ maxMagnitude := by decide
  have whole : mkRat number (Nat.pow 10 0) = (number : Rat) := Rat.mkRat_one number
  simp only [readNumber, noPoint, Option.getD_none, List.append_nil, digitsValue_toDigits, List.length_nil,
    someDigit, small, scale, whole]
  rfl

theorem spells_toString {number : Nat} (small : number ≤ maxMagnitude) :
    Spells (toString number) [.number number] := by
  intro rest lexemes ends scans
  rw [Nat.toString_eq_repr, Nat.toList_repr]
  refine scans.number Nat.toDigits_ne_nil (fun char member => ?_) (readNumber_toDigits small) ends
  rw [isNumberPart, isDigit_of_mem_toDigits member]
  rfl

end Numbers

end Ergo.Language
