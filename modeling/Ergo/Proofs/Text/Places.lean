import Ergo.Proofs.Text.Words
import Mathlib.Data.List.TakeWhile
import Mathlib.Data.String.Basic

/-!
Places in texts. A word stands at a byte offset if it follows a piece of the text that takes as many
bytes. So what stands in a text begins at the boundary of a character (`StandsAt.isValid`), and what
stands in a part of a text stands in the text (`StandsAt.trans`). The white space that is trimmed off a
text is at its ends.
-/

namespace Ergo.Text

/-! ## Bytes -/

theorem byteLength_eq_utf8Len (chars : List Char) : byteLength chars = String.utf8Len chars := by
  induction chars with
  | nil => rfl
  | cons char chars induction =>
      rw [byteLength_cons, String.utf8Len_cons, induction, Nat.add_comm]

theorem byteLength_toList (text : String) : byteLength text.toList = text.utf8ByteSize := by
  rw [byteLength_eq_utf8Len, String.utf8Len_toList]

theorem utf8Size_eq_one {char : Char} (ascii : char.toNat ≤ 0x7F) : char.utf8Size = 1 :=
  Char.utf8Size_eq_one_iff.mpr (UInt32.le_iff_toNat_le.mpr ascii)

theorem byteLength_eq_length {word : List Char} (ascii : ∀ char ∈ word, char.toNat ≤ 0x7F) :
    byteLength word = word.length := by
  induction word with
  | nil => rfl
  | cons char word induction =>
      obtain ⟨firstAscii, laterAscii⟩ := List.forall_mem_cons.mp ascii
      rw [byteLength_cons, utf8Size_eq_one firstAscii, induction laterAscii, List.length_cons,
        Nat.add_comm]

/-! ## Words at byte offsets -/

/-- The word stands in the text where `position` bytes come before it. -/
def StandsAt (chars word : List Char) (position : Nat) : Prop :=
  ∃ before after, chars = before ++ word ++ after ∧ byteLength before = position

section StandsAt

variable {chars word : List Char} {position : Nat}

theorem standsAt_append (before word after : List Char) :
    StandsAt (before ++ word ++ after) word (byteLength before) :=
  ⟨before, after, rfl, rfl⟩

theorem StandsAt.shorten {front : List Char} (stands : StandsAt chars word position)
    (begins : front <+: word) : StandsAt chars front position := by
  obtain ⟨before, after, rfl, rfl⟩ := stands
  obtain ⟨later, rfl⟩ := begins
  exact ⟨before, later ++ after, by simp, rfl⟩

theorem StandsAt.place (stands : StandsAt chars word position) : StandsAt chars [] position :=
  stands.shorten List.nil_prefix

theorem standsAt_zero (chars : List Char) : StandsAt chars [] 0 :=
  ⟨[], chars, rfl, rfl⟩

theorem standsAt_end (chars : List Char) : StandsAt chars [] (byteLength chars) :=
  ⟨chars, [], by simp, rfl⟩

/-- What stands in a part of a text stands in the text, further on by what comes before the part. -/
theorem StandsAt.trans {part : List Char} {offset : Nat} (inPart : StandsAt part word position)
    (partStands : StandsAt chars part offset) : StandsAt chars word (position + offset) := by
  obtain ⟨before, after, rfl, rfl⟩ := inPart
  obtain ⟨front, back, rfl, rfl⟩ := partStands
  exact ⟨front ++ before, after ++ back, by simp, by rw [byteLength_append, Nat.add_comm]⟩

end StandsAt

section Offsets

variable {text : String} {word : List Char} {position : Nat} {char : Char}

theorem StandsAt.exists_append (stands : StandsAt text.toList word position) :
    ∃ before after, text = before ++ String.ofList word ++ after ∧ before.utf8ByteSize = position := by
  obtain ⟨before, after, same, rfl⟩ := stands
  refine ⟨String.ofList before, String.ofList after, ?_, ?_⟩
  · rw [← String.ofList_append, ← String.ofList_append, ← same, String.ofList_toList]
  · rw [← byteLength_toList, String.toList_ofList]

theorem StandsAt.isValid (stands : StandsAt text.toList word position) :
    String.Pos.Raw.IsValid text ⟨position⟩ := by
  obtain ⟨before, after, rfl, rfl⟩ := stands.exists_append
  rw [String.append_assoc]
  exact String.Pos.Raw.isValid_iff_exists_append.mpr ⟨_, _, rfl, rfl⟩

theorem StandsAt.le_utf8ByteSize (stands : StandsAt text.toList word position) :
    position ≤ text.utf8ByteSize :=
  stands.isValid.le_rawEndPos

/-- The text behind the place begins with the character at the place. -/
theorem StandsAt.get?_eq (stands : StandsAt text.toList [char] position) :
    String.Pos.Raw.get? text ⟨position⟩ = some char := by
  obtain ⟨before, after, same, rfl⟩ := stands
  rw [← String.ofList_toList (s := text), same, List.append_assoc, byteLength_eq_utf8Len,
    String.get?_of_valid]
  rfl

theorem StandsAt.get?_cases (stands : StandsAt text.toList [] position) :
    (∃ char, String.Pos.Raw.get? text ⟨position⟩ = some char ∧
      StandsAt text.toList [char] position) ∨
    String.Pos.Raw.get? text ⟨position⟩ = none ∧ position = text.utf8ByteSize := by
  obtain ⟨before, after, same, rfl⟩ := stands
  rw [List.append_nil] at same
  cases after with
  | nil =>
      have found := String.get?_of_valid before []
      rw [← same, String.ofList_toList, ← byteLength_eq_utf8Len] at found
      rw [List.append_nil] at same
      exact .inr ⟨found, by rw [← same, byteLength_toList]⟩
  | cons char after =>
      have here : StandsAt text.toList [char] (byteLength before) := ⟨before, after, by simp [same], rfl⟩
      exact .inl ⟨char, here.get?_eq, here⟩

end Offsets

/-! ## White space at the ends -/

def IsBlankText (chars : List Char) : Prop :=
  ∀ char ∈ chars, isBlank char = true

section Trimming

variable {leading body trailing chars : List Char}

theorem head?_dropWhile_eq_false (keep : Char → Bool) (chars : List Char) :
    ∀ char ∈ (chars.dropWhile keep).head?, keep char = false := by
  intro char isFirst
  have rejected := List.head?_dropWhile_not keep chars
  rw [isFirst] at rejected
  simpa using rejected

theorem exists_trimStart (chars : List Char) :
    ∃ leading, IsBlankText leading ∧ chars = leading ++ trimStart chars :=
  ⟨chars.takeWhile isBlank, fun _ member => List.mem_takeWhile_imp member,
    List.takeWhile_append_dropWhile.symm⟩

theorem exists_trimEnd (chars : List Char) :
    ∃ trailing, IsBlankText trailing ∧ chars = trimEnd chars ++ trailing := by
  obtain ⟨leading, blank, same⟩ := exists_trimStart chars.reverse
  refine ⟨leading.reverse, fun char member => blank char (List.mem_reverse.mp member), ?_⟩
  rw [← List.reverse_inj, same, List.reverse_append, List.reverse_reverse, trimEnd,
    List.reverse_reverse, trimStart]

theorem isTrimmed_trimChars (chars : List Char) : IsTrimmed (trimChars chars) := by
  refine ⟨fun char isFirst => ?_, fun char isLast => ?_⟩
  case refine_1 =>
    obtain ⟨trailing, -, same⟩ := exists_trimEnd (trimStart chars)
    refine head?_dropWhile_eq_false isBlank chars char ?_
    rw [← trimStart, same]
    exact List.mem_head?_append_of_mem_head? isFirst
  case refine_2 =>
    rw [trimChars, trimEnd, List.getLast?_reverse] at isLast
    exact head?_dropWhile_eq_false isBlank _ char isLast

theorem trimStart_append (blank : IsBlankText leading)
    (first : ∀ char ∈ chars.head?, isBlank char = false) : trimStart (leading ++ chars) = chars := by
  rw [trimStart, List.dropWhile_append_of_pos blank, dropWhile_eq_self_of_head? first]

theorem trimEnd_append (blank : IsBlankText trailing)
    (last : ∀ char ∈ chars.getLast?, isBlank char = false) : trimEnd (chars ++ trailing) = chars := by
  rw [← List.head?_reverse] at last
  have reversed := trimStart_append (fun char member => blank char (List.mem_reverse.mp member)) last
  rw [trimEnd, List.reverse_append, ← trimStart, reversed, List.reverse_reverse]

theorem trimStart_of_trimmed (blank : IsBlankText leading) (trimmed : IsTrimmed body)
    (nonempty : body ≠ []) : trimStart (leading ++ (body ++ trailing)) = body ++ trailing := by
  refine trimStart_append blank fun char isFirst => trimmed.first char ?_
  rwa [List.head?_append_of_ne_nil _ nonempty] at isFirst

theorem trimChars_of_trimmed (blank : IsBlankText leading) (trimmed : IsTrimmed body)
    (nonempty : body ≠ []) (blankEnd : IsBlankText trailing) :
    trimChars (leading ++ (body ++ trailing)) = body := by
  rw [trimChars, trimStart_of_trimmed blank trimmed nonempty, trimEnd_append blankEnd trimmed.last]

end Trimming

end Ergo.Text
