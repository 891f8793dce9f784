import Ergo.Text.Words
import Mathlib.Data.List.Basic

/-!
Texts that are put together from words: trimming takes nothing off them, and cutting them gives the
words back. The letters and digits of words are known by their codes.
-/

namespace Ergo.Text

/-! ## Letters and digits -/

section Characters

variable {char : Char}

theorem isUpper_iff : char.isUpper = true ↔ 0x41 ≤ char.toNat ∧ char.toNat ≤ 0x5A :=
  decide_eq_true_iff

theorem isLower_iff : char.isLower = true ↔ 0x61 ≤ char.toNat ∧ char.toNat ≤ 0x7A := by
  change (decide (0x61 ≤ char.val) && decide (char.val ≤ 0x7A)) = true ↔ _
  simp only [Bool.and_eq_true, decide_eq_true_iff, UInt32.le_iff_toNat_le]
  rfl

theorem isAlpha_iff : char.isAlpha = true ↔ char.isUpper = true ∨ char.isLower = true :=
  Bool.or_eq_true_iff

theorem isDigit_iff : char.isDigit = true ↔ 0x30 ≤ char.toNat ∧ char.toNat ≤ 0x39 := by
  simp [Char.isDigit, UInt32.le_iff_toNat_le, ← Char.toNat_val]

end Characters

variable {keep stop : Char → Bool} {word rest : List Char}

/-! ## Trimming -/

/-- The text neither begins nor ends with white space. -/
structure IsTrimmed (chars : List Char) : Prop where
  first : ∀ char ∈ chars.head?, isBlank char = false
  last : ∀ char ∈ chars.getLast?, isBlank char = false

theorem dropWhile_eq_self_of_head? {chars : List Char}
    (first : ∀ char ∈ chars.head?, keep char = false) : chars.dropWhile keep = chars := by
  cases chars with
  | nil => rfl
  | cons char rest => rw [List.dropWhile_cons, first char rfl, if_neg Bool.false_ne_true]

theorem IsTrimmed.trimStart {chars : List Char} (trimmed : IsTrimmed chars) :
    trimStart chars = chars :=
  dropWhile_eq_self_of_head? trimmed.first

theorem IsTrimmed.trimChars {chars : List Char} (trimmed : IsTrimmed chars) :
    trimChars chars = chars := by
  have last : ∀ char ∈ chars.reverse.head?, isBlank char = false := by
    rw [List.head?_reverse]
    exact trimmed.last
  rw [Text.trimChars, trimmed.trimStart, trimEnd, dropWhile_eq_self_of_head? last,
    List.reverse_reverse]

/-! ## Cutting -/

theorem cutAtFirst_append {char : Char} (inside : ∀ char ∈ word, stop char = false)
    (stops : stop char = true) : cutAtFirst stop (word ++ char :: rest) = some (word, rest) := by
  induction word with
  | nil => simp [cutAtFirst, stops]
  | cons first word induction =>
      have later := induction fun char member => inside char (List.mem_cons_of_mem _ member)
      simp [cutAtFirst, inside first (by simp), later]

theorem cutAtFirst_eq_none (inside : ∀ char ∈ word, stop char = false) :
    cutAtFirst stop word = none := by
  induction word with
  | nil => rfl
  | cons first word induction =>
      have later := induction fun char member => inside char (List.mem_cons_of_mem _ member)
      simp [cutAtFirst, inside first (by simp), later]

theorem cutAtFirst_cases (stop : Char → Bool) (chars : List Char) :
    (cutAtFirst stop chars = none ∧ ∀ char ∈ chars, stop char = false) ∨
      ∃ before char after, cutAtFirst stop chars = some (before, after) ∧
        chars = before ++ char :: after ∧ stop char = true ∧ ∀ char ∈ before, stop char = false := by
  induction chars with
  | nil => exact .inl ⟨rfl, List.forall_mem_nil _⟩
  | cons first rest induction =>
      cases stops : stop first with
      | true => exact .inr ⟨[], first, rest, by simp [cutAtFirst, stops], rfl, stops, List.forall_mem_nil _⟩
      | false =>
          rcases induction with ⟨uncut, inside⟩ | ⟨before, char, after, cut, rfl, atChar, inside⟩
          · exact .inl ⟨by simp [cutAtFirst, stops, uncut], List.forall_mem_cons.mpr ⟨stops, inside⟩⟩
          · exact .inr ⟨first :: before, char, after, by simp [cutAtFirst, stops, cut], rfl, atChar,
              List.forall_mem_cons.mpr ⟨stops, inside⟩⟩

theorem runsFrom_append {current : List Char} (kept : ∀ char ∈ word, keep char = true) :
    runsFrom keep current (word ++ rest) = runsFrom keep (word.reverse ++ current) rest := by
  induction word generalizing current with
  | nil => rfl
  | cons char word induction =>
      rw [List.cons_append, runsFrom, if_pos (kept char (by simp)),
        induction fun char member => kept char (List.mem_cons_of_mem _ member)]
      simp

theorem runs_intercalate {separator : Char} {words : List (List Char)}
    (separates : keep separator = false)
    (each : ∀ word ∈ words, word ≠ [] ∧ ∀ char ∈ word, keep char = true) :
    runs keep ([separator].intercalate words) = words := by
  unfold runs
  induction words with
  | nil => rfl
  | cons word words induction =>
      obtain ⟨nonempty, kept⟩ := each word (by simp)
      have later := induction fun word member => each word (List.mem_cons_of_mem _ member)
      cases words with
      | nil =>
          rw [List.intercalate_singleton, ← List.append_nil word, runsFrom_append kept]
          simp [runsFrom, nonempty]
      | cons next words =>
          rw [List.intercalate_cons_cons, List.append_assoc, runsFrom_append kept,
            List.singleton_append, runsFrom]
          simp [separates, nonempty, later]

/-- Words that are joined end in the last of them. -/
theorem exists_intercalate_eq_append (separator : Char) {words : List (List Char)}
    (nonempty : words ≠ []) :
    ∃ front, [separator].intercalate words = front ++ words.getLast nonempty := by
  induction words with
  | nil => exact absurd rfl nonempty
  | cons word words induction =>
      cases words with
      | nil => exact ⟨[], by simp⟩
      | cons next words =>
          obtain ⟨front, same⟩ := induction (by simp)
          refine ⟨word ++ separator :: front, ?_⟩
          rw [List.intercalate_cons_cons, same, List.getLast_cons_cons]
          simp

/-! ## Texts inside others -/

theorem occursIn_iff_isInfix {needle chars : List Char} :
    occursIn needle chars = true ↔ needle <:+: chars := by
  induction chars with
  | nil => rw [occursIn, List.isEmpty_iff, List.infix_nil]
  | cons char chars induction =>
      rw [occursIn, Bool.or_eq_true, List.isPrefixOf_iff_prefix, induction, List.infix_cons_iff]

theorem contains_iff_isInfix {text needle : String} :
    contains text needle = true ↔ needle.toList <:+: text.toList :=
  occursIn_iff_isInfix

theorem infix_of_mem_runsFrom {current chars run : List Char}
    (member : run ∈ runsFrom keep current chars) : run <:+: current.reverse ++ chars := by
  induction chars generalizing current with
  | nil =>
      rw [runsFrom] at member
      split at member
      · cases member
      · obtain rfl := List.mem_singleton.mp member
        exact (List.prefix_append _ _).isInfix
  | cons char chars induction =>
      have behind : chars <:+: current.reverse ++ char :: chars :=
        ((List.suffix_cons char chars).trans (List.suffix_append _ _)).isInfix
      rw [runsFrom] at member
      split at member
      · have inside := induction member
        rwa [List.reverse_cons, List.append_assoc, List.singleton_append] at inside
      · split at member
        · exact (induction member).trans behind
        · rcases List.mem_cons.mp member with rfl | later
          · exact (List.prefix_append _ _).isInfix
          · exact (induction later).trans behind

theorem infix_of_mem_runs {chars run : List Char} (member : run ∈ runs keep chars) :
    run <:+: chars :=
  infix_of_mem_runsFrom member

theorem runs_cons_of_not_keep {char : Char} (separates : keep char = false) (chars : List Char) :
    runs keep (char :: chars) = runs keep chars := by
  simp [runs, runsFrom, separates]

/-- The runs of a text around one of its runs are those of the text around that run. -/
theorem exists_split_of_runsFrom {current chars run : List Char} {front later : List (List Char)}
    (kept : ∀ char ∈ current, keep char = true)
    (cut : runsFrom keep current chars = front ++ run :: later) :
    ∃ before after, current.reverse ++ chars = before ++ run ++ after ∧
      runs keep before = front ∧ runs keep after = later := by
  induction chars generalizing current front with
  | nil =>
      rw [runsFrom] at cut
      split at cut
      · simp at cut
      · cases front with
        | nil =>
            obtain ⟨rfl, rfl⟩ := List.cons.inj cut
            exact ⟨[], [], by simp, rfl, rfl⟩
        | cons first front => simp at cut
  | cons char chars induction =>
      rw [runsFrom] at cut
      split at cut
      · next keeps =>
          have inside := induction (List.forall_mem_cons.mpr ⟨keeps, kept⟩) cut
          rwa [List.reverse_cons, List.append_assoc, List.singleton_append] at inside
      · next separates =>
          rw [Bool.not_eq_true] at separates
          split at cut
          · next isEmpty =>
              obtain ⟨before, after, same, isFront, isLater⟩ := induction (List.forall_mem_nil _) cut
              refine ⟨char :: before, after, ?_, ?_, isLater⟩
              · rw [List.isEmpty_iff.mp isEmpty]
                exact congrArg (char :: ·) same
              · rw [runs_cons_of_not_keep separates, isFront]
          · next nonempty =>
              cases front with
              | nil =>
                  obtain ⟨rfl, rfl⟩ := List.cons.inj cut
                  exact ⟨[], char :: chars, rfl, rfl, runs_cons_of_not_keep separates chars⟩
              | cons first front =>
                  obtain ⟨rfl, laterCut⟩ := List.cons.inj cut
                  obtain ⟨before, after, same, isFront, isLater⟩ :=
                    induction (List.forall_mem_nil _) laterCut
                  refine ⟨current.reverse ++ char :: before, after, ?_, ?_, isLater⟩
                  · rw [List.reverse_nil, List.nil_append] at same
                    simp [same]
                  · rw [runs, runsFrom_append (by simpa using kept), ← isFront]
                    simp [runsFrom, separates, nonempty, runs]

theorem exists_split_of_runs {chars run : List Char} {front later : List (List Char)}
    (cut : runs keep chars = front ++ run :: later) :
    ∃ before after, chars = before ++ run ++ after ∧
      runs keep before = front ∧ runs keep after = later :=
  exists_split_of_runsFrom (List.forall_mem_nil _) cut

end Ergo.Text
