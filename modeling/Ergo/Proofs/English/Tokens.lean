import Ergo.English.Tagging
import Ergo.English.Tokens
import Ergo.Proofs.Language.Scanning
import Mathlib.Data.List.Basic

/-!
The tokens of a text. Each is a sign or a word, and together they have the letters and digits of the
text in their order. Of the apostrophes and hyphens at the end of a word one is taken off, so that a
token ends in another just if two of them or more stand where a word of the text ends
(`tokens_of_text`).
-/

namespace Ergo.English

open Ergo.Language Ergo.Text

/-! ## Words -/

/-- What may stand in a word after its first character. -/
def isWordPart (char : Char) : Bool :=
  isAlphanumeric char || isJoint char

/-- A letter or digit, and after it letters, digits, apostrophes and hyphens. -/
def IsWord : List Char → Prop
  | [] => False
  | first :: rest => isAlphanumeric first = true ∧ ∀ char ∈ rest, isWordPart char = true

/-- A token of several characters that ends in an apostrophe or a hyphen. -/
def IsFrayed (token : List Char) : Prop :=
  1 < token.length ∧ token.getLast?.any isJoint = true

instance : DecidablePred IsFrayed := fun _ => inferInstanceAs (Decidable (_ ∧ _))

/-- Somewhere in the text two or more apostrophes and hyphens stand between a letter or digit and a
character that no word has, or the end. -/
def HasFrayedWord (text : List Char) : Prop :=
  ∃ before char joints after, text = before ++ char :: (joints ++ after) ∧
    isAlphanumeric char = true ∧ 2 ≤ joints.length ∧ (∀ joint ∈ joints, isJoint joint = true) ∧
    ∀ next ∈ after.head?, isWordPart next = false

theorem isAlphanumeric_of_isJoint {char : Char} (joint : isJoint char = true) :
    isAlphanumeric char = false := by
  simp only [isJoint, Bool.or_eq_true, beq_iff_eq] at joint
  rcases joint with rfl | rfl <;> rfl

theorem isJoint_of_isAlphanumeric {char : Char} (alphanumeric : isAlphanumeric char = true) :
    isJoint char = false :=
  eq_false_of_ne_true fun joint => by simp [isAlphanumeric_of_isJoint joint] at alphanumeric

/-! ## The open word -/

/-- What the open word, reversed, is at any time. -/
structure IsOpen (word : List Char) : Prop where
  parts : ∀ char ∈ word, isWordPart char = true
  first : ∀ char ∈ word.getLast?, isAlphanumeric char = true

variable {word token text : List Char} {char last : Char}

theorem IsOpen.nil : IsOpen [] := ⟨by simp, by simp⟩

/-- A letter or digit goes on with the open word or begins one, an apostrophe or hyphen only goes
on. -/
theorem IsOpen.push (isOpen : IsOpen word)
    (goesOn : (isAlphanumeric char || (isJoint char && !word.isEmpty)) = true) :
    IsOpen (char :: word) := by
  refine ⟨List.forall_mem_cons.mpr ⟨?_, isOpen.parts⟩, ?_⟩
  · rw [Bool.or_eq_true, Bool.and_eq_true] at goesOn
    rw [isWordPart, Bool.or_eq_true]
    exact goesOn.imp_right And.left
  · cases word with
    | nil => simpa using goesOn
    | cons next word => simpa using isOpen.first

theorem IsOpen.pop (isOpen : IsOpen (last :: word)) (someChar : word ≠ []) : IsOpen word := by
  obtain ⟨next, word, rfl⟩ := List.exists_cons_of_ne_nil someChar
  exact ⟨(List.forall_mem_cons.mp isOpen.parts).2, by simpa using isOpen.first⟩

/-- A word does not begin with an apostrophe or hyphen. -/
theorem IsOpen.ne_nil_of_isJoint (isOpen : IsOpen (last :: word)) (joint : isJoint last = true) :
    word ≠ [] := by
  rintro rfl
  have alphanumeric := isOpen.first last rfl
  exact absurd joint (by simp [isJoint_of_isAlphanumeric alphanumeric])

theorem IsOpen.isWord (isOpen : IsOpen word) (someChar : word ≠ []) : IsWord word.reverse := by
  cases chars : word.reverse with
  | nil => exact absurd (List.reverse_eq_nil_iff.mp chars) someChar
  | cons first rest =>
      have isFirst : first ∈ word.getLast? := by rw [← List.head?_reverse, chars]; rfl
      refine ⟨isOpen.first first isFirst, fun char member => isOpen.parts char ?_⟩
      rw [← List.mem_reverse, chars]
      exact List.mem_cons_of_mem _ member

/-! ## Closing the word -/

theorem isWord_of_mem_closeWord (isOpen : IsOpen word) (member : token ∈ closeWord word) :
    IsWord token := by
  match word with
  | [] => cases member
  | [char] =>
      obtain rfl := List.mem_singleton.mp member
      exact isOpen.isWord (List.cons_ne_nil _ _)
  | last :: next :: before =>
      obtain rfl := List.mem_singleton.mp member
      split
      · exact (isOpen.pop (List.cons_ne_nil _ _)).isWord (List.cons_ne_nil _ _)
      · exact isOpen.isWord (List.cons_ne_nil _ _)

theorem filter_flatten_closeWord (word : List Char) :
    (closeWord word).flatten.filter isAlphanumeric = word.reverse.filter isAlphanumeric := by
  match word with
  | [] => rfl
  | [char] => simp [closeWord]
  | last :: next :: before =>
      by_cases joint : isJoint last = true
      · simp [closeWord, joint, isAlphanumeric_of_isJoint joint, List.filter_cons]
      · simp [closeWord, joint]

/-- The open word, reversed, ends in two apostrophes or hyphens. -/
def EndsFrayed : List Char → Prop
  | last :: next :: _ => isJoint last = true ∧ isJoint next = true
  | _ => False

/-- One apostrophe or hyphen is taken off a word, so that it has to end in two to be frayed. -/
theorem exists_isFrayed_closeWord_iff (isOpen : IsOpen word) :
    (∃ token ∈ closeWord word, IsFrayed token) ↔ EndsFrayed word := by
  match word with
  | [] => simp [closeWord, EndsFrayed]
  | [char] => simp [closeWord, IsFrayed, EndsFrayed]
  | last :: next :: before =>
      by_cases joint : isJoint last = true
      · have several (nextJoint : isJoint next = true) : before ≠ [] :=
          (isOpen.pop (List.cons_ne_nil _ _)).ne_nil_of_isJoint nextJoint
        simpa [closeWord, IsFrayed, EndsFrayed, joint, List.length_pos_iff] using several
      · simp [closeWord, IsFrayed, EndsFrayed, joint]

/-! ## Frayed words of a text -/

theorem not_hasFrayedWord_nil : ¬ HasFrayedWord [] := by
  rintro ⟨before, char, joints, after, split, -⟩
  simp at split

theorem hasFrayedWord_cons_iff (apart : isAlphanumeric char = false) :
    HasFrayedWord (char :: text) ↔ HasFrayedWord text := by
  constructor
  · rintro ⟨before, first, joints, after, split, starts, rest⟩
    cases before with
    | nil =>
        obtain ⟨rfl, -⟩ := List.cons.inj split
        exact absurd starts (by simp [apart])
    | cons other before =>
        obtain ⟨-, later⟩ := List.cons.inj split
        exact ⟨before, first, joints, after, later, starts, rest⟩
  · rintro ⟨before, first, joints, after, rfl, rest⟩
    exact ⟨char :: before, first, joints, after, rfl, rest⟩

theorem endsFrayed_reverse_append {joints : List Char} (several : 2 ≤ joints.length)
    (areJoints : ∀ joint ∈ joints, isJoint joint = true) (before : List Char) :
    EndsFrayed (joints.reverse ++ before) := by
  match chars : joints.reverse with
  | last :: next :: others =>
      have listed : ∀ joint ∈ last :: next :: others, isJoint joint = true := by
        rw [← chars]
        exact fun joint member => areJoints joint (List.mem_reverse.mp member)
      exact ⟨listed last (by simp), listed next (by simp)⟩
  | [last] | [] =>
      rw [← List.length_reverse, chars] at several
      exact absurd several (by simp)

theorem EndsFrayed.two_le_length_takeWhile (frayed : EndsFrayed word) :
    2 ≤ (word.takeWhile isJoint).length := by
  match word with
  | last :: next :: before => simp [frayed.1, frayed.2]
  | [last] | [] => exact absurd frayed id

/-- In front of the apostrophes and hyphens at the end of a word stands a letter or digit. -/
theorem IsOpen.exists_dropWhile_eq_cons (isOpen : IsOpen word) (someChar : word ≠ []) :
    ∃ char before, word.dropWhile isJoint = char :: before ∧ isAlphanumeric char = true := by
  have starts := isOpen.first _ (List.getLast?_eq_some_getLast someChar)
  have notAll : word.dropWhile isJoint ≠ [] := by
    intro allJoints
    rw [List.dropWhile_eq_nil_iff] at allJoints
    have joint := allJoints _ (List.getLast_mem someChar)
    simp [isJoint_of_isAlphanumeric starts] at joint
  obtain ⟨char, before, split⟩ := List.exists_cons_of_ne_nil notAll
  have apart : isJoint char = false := by
    have stops := List.head?_dropWhile_not isJoint word
    rw [split] at stops
    simpa using stops
  have inside : char ∈ word :=
    (List.dropWhile_suffix isJoint).subset (split ▸ List.mem_cons_self)
  have part := isOpen.parts char inside
  rw [isWordPart, apart, Bool.or_false] at part
  exact ⟨char, before, split, part⟩

/-- Where the open word ends, it is frayed itself or a later word is. -/
theorem hasFrayedWord_reverse_append_iff (isOpen : IsOpen word)
    (ends : ∀ next ∈ text.head?, isWordPart next = false) :
    HasFrayedWord (word.reverse ++ text) ↔ EndsFrayed word ∨ HasFrayedWord text := by
  constructor
  · rintro ⟨before, char, joints, after, split, starts, several, areJoints, stops⟩
    rcases List.append_eq_append_iff.mp split with ⟨more, rfl, later⟩ | ⟨rest, isWord, later⟩
    · exact .inr ⟨more, char, joints, after, later, starts, several, areJoints, stops⟩
    cases rest with
    | nil => exact .inr ⟨[], char, joints, after, later.symm, starts, several, areJoints, stops⟩
    | cons first rest =>
        rw [List.cons_append] at later
        obtain ⟨rfl, same⟩ := List.cons.inj later
        have restParts : ∀ part ∈ rest, isWordPart part = true := by
          intro part member
          refine isOpen.parts part (List.mem_reverse.mp ?_)
          rw [isWord]
          exact List.mem_append_right _ (List.mem_cons_of_mem _ member)
        have jointParts : ∀ joint ∈ joints, isWordPart joint = true :=
          fun joint member => by rw [isWordPart, areJoints joint member, Bool.or_true]
        -- both lists end in front of the first character that no word has
        obtain rfl : joints = rest := by
          rw [← takeWhile_append_of_head? jointParts stops, same,
            takeWhile_append_of_head? restParts ends]
        have reversed : word = joints.reverse ++ char :: before.reverse := by
          rw [← List.reverse_reverse word, isWord]
          simp
        rw [reversed]
        exact .inl (endsFrayed_reverse_append several areJoints _)
  · rintro (frayed | ⟨before, char, joints, after, rfl, rest⟩)
    · have someChar : word ≠ [] := by rintro rfl; exact frayed
      obtain ⟨char, before, split, starts⟩ := isOpen.exists_dropWhile_eq_cons someChar
      refine ⟨before.reverse, char, (word.takeWhile isJoint).reverse, text, ?_, starts, ?_, ?_, ends⟩
      · conv_lhs => rw [← List.takeWhile_append_dropWhile (p := isJoint) (l := word), split]
        simp
      · rw [List.length_reverse]
        exact frayed.two_le_length_takeWhile
      · intro joint member
        exact List.mem_takeWhile_imp (List.mem_reverse.mp member)
    · exact ⟨word.reverse ++ before, char, joints, after, by simp, rest⟩

/-! ## Tokens -/

/-- A character with which the open word does not go on ends it. -/
theorem isAlphanumeric_of_not_goesOn
    (ends : (isAlphanumeric char || (isJoint char && !word.isEmpty)) = false) :
    isAlphanumeric char = false :=
  (Bool.or_eq_false_iff.mp ends).1

theorem isWord_or_isSign_of_mem_tokensFrom (isOpen : IsOpen word)
    (member : token ∈ tokensFrom word text) :
    IsWord token ∨ ∃ char, token = [char] ∧ isPunctuation char = true := by
  induction text generalizing word with
  | nil => exact .inl (isWord_of_mem_closeWord isOpen member)
  | cons char text induction =>
      rw [tokensFrom] at member
      split at member
      · next goesOn => exact induction (isOpen.push goesOn) member
      · rw [List.mem_append, List.mem_append] at member
        rcases member with (closed | sign) | later
        · exact .inl (isWord_of_mem_closeWord isOpen closed)
        · split at sign
          · next punctuation => exact .inr ⟨char, List.mem_singleton.mp sign, punctuation⟩
          · cases sign
        · exact induction .nil later

/-- Signs are neither letters nor digits. -/
theorem filter_flatten_sign (apart : isAlphanumeric char = false) :
    (if isPunctuation char then [[char]] else []).flatten.filter isAlphanumeric = [] := by
  split <;> simp [apart]

theorem filter_flatten_tokensFrom (word text : List Char) :
    (tokensFrom word text).flatten.filter isAlphanumeric =
      (word.reverse ++ text).filter isAlphanumeric := by
  induction text generalizing word with
  | nil => rw [tokensFrom, filter_flatten_closeWord, List.append_nil]
  | cons char text induction =>
      rw [tokensFrom]
      split
      · rw [induction, List.reverse_cons, List.append_assoc, List.singleton_append]
      · next ends =>
          have apart := isAlphanumeric_of_not_goesOn (eq_false_of_ne_true ends)
          rw [List.flatten_append, List.flatten_append, List.filter_append, List.filter_append,
            filter_flatten_closeWord, filter_flatten_sign apart, induction, List.append_nil,
            List.reverse_nil, List.nil_append, List.filter_append, List.filter_cons, apart,
            if_neg Bool.false_ne_true]

theorem not_isFrayed_sign (member : token ∈ if isPunctuation char then [[char]] else []) :
    ¬ IsFrayed token := by
  rintro ⟨several, -⟩
  split at member
  · rw [List.mem_singleton.mp member] at several
    exact absurd several (by simp)
  · cases member

/-- A character that ends the open word ends it for good, and begins no word itself. -/
theorem hasFrayedWord_reverse_cons_iff (isOpen : IsOpen word)
    (ends : (isAlphanumeric char || (isJoint char && !word.isEmpty)) = false) :
    HasFrayedWord (word.reverse ++ char :: text) ↔ EndsFrayed word ∨ HasFrayedWord text := by
  have apart := isAlphanumeric_of_not_goesOn ends
  have later : HasFrayedWord (char :: text) ↔ HasFrayedWord text := hasFrayedWord_cons_iff apart
  rw [← later]
  cases word with
  | nil => simp [EndsFrayed]
  | cons last word =>
      refine hasFrayedWord_reverse_append_iff isOpen fun next isNext => ?_
      obtain rfl := Option.some.inj isNext
      simpa [isWordPart] using ends

theorem exists_isFrayed_tokensFrom_iff (isOpen : IsOpen word) :
    (∃ token ∈ tokensFrom word text, IsFrayed token) ↔ HasFrayedWord (word.reverse ++ text) := by
  induction text generalizing word with
  | nil =>
      rw [tokensFrom, exists_isFrayed_closeWord_iff isOpen,
        hasFrayedWord_reverse_append_iff isOpen (by simp), or_iff_left not_hasFrayedWord_nil]
  | cons char text induction =>
      rw [tokensFrom]
      split
      · next goesOn =>
          rw [induction (isOpen.push goesOn), List.reverse_cons, List.append_assoc,
            List.singleton_append]
      · next ends =>
          rw [hasFrayedWord_reverse_cons_iff isOpen (eq_false_of_ne_true ends),
            ← exists_isFrayed_closeWord_iff isOpen, ← List.nil_append text, ← List.reverse_nil,
            ← induction .nil]
          constructor
          · rintro ⟨token, member, frayed⟩
            rw [List.mem_append, List.mem_append] at member
            rcases member with (closed | sign) | later
            · exact .inl ⟨token, closed, frayed⟩
            · exact absurd frayed (not_isFrayed_sign sign)
            · exact .inr ⟨token, later, frayed⟩
          · rintro (⟨token, closed, frayed⟩ | ⟨token, later, frayed⟩)
            · exact ⟨token, by simp [closed], frayed⟩
            · exact ⟨token, by simp [later], frayed⟩

/-- Every token is a sign or a word, the letters and digits of the tokens are those of the text, and
a token ends in an apostrophe or a hyphen just if a word of the text ends in two of them or more. -/
theorem tokens_of_text (text : String) :
    (∀ token ∈ tokenize text, isSign token = true ∨ IsWord token.toList) ∧
      (tokenize text).flatMap (fun token => token.toList.filter isAlphanumeric) =
        text.toList.filter isAlphanumeric ∧
      ((∀ token ∈ tokenize text, ¬ IsFrayed token.toList) ↔ ¬ HasFrayedWord text.toList) := by
  refine ⟨?_, ?_, ?_⟩
  · intro token member
    obtain ⟨chars, listed, rfl⟩ := List.mem_map.mp member
    rw [isSign, String.toList_ofList]
    rcases isWord_or_isSign_of_mem_tokensFrom .nil listed with isWord | ⟨char, rfl, punctuation⟩
    · exact .inr isWord
    · exact .inl punctuation
  · rw [tokenize, List.flatMap_map]
    simp only [String.toList_ofList]
    rw [← List.filter_flatMap, List.flatMap_id', filter_flatten_tokensFrom]
    rfl
  · have frayed : _ ↔ HasFrayedWord ([].reverse ++ text.toList) := exists_isFrayed_tokensFrom_iff .nil
    rw [List.reverse_nil, List.nil_append] at frayed
    rw [← frayed, tokenize]
    simp

/-- Of two hyphens at the end of a word one is left. -/
theorem not_forall_not_isFrayed : ¬ ∀ token ∈ tokenize "cat--", ¬ IsFrayed token.toList := by
  decide

end Ergo.English
