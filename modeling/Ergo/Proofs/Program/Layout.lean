import Ergo.Proofs.Program.RoundTrip
import Ergo.Proofs.Text.Places

/-!
The layout of statements. White space around a statement and behind its keyword is no part of it; every
text is laid out as it is taken apart (`StatementParts.liesIn_ofChars`), in no other way if it has a
keyword at all (`StatementParts.LiesIn.eq_ofChars`).
-/

namespace Ergo

open Ergo.Text

namespace StatementParts

/-- How the parts of a statement lie in its text, between white space: the keyword up to the first white
space after it, then one white space character and the operands, or nothing. -/
inductive LiesIn : StatementParts → List Char → Prop
  | keywordAlone {leading keyword trailing : List Char} : IsBlankText leading →
      (∀ char ∈ keyword, isBlank char = false) → IsBlankText trailing →
      LiesIn ⟨keyword, byteLength leading, [], byteLength (leading ++ keyword)⟩
        (leading ++ keyword ++ trailing)
  | withOperands {leading keyword operands trailing : List Char} {separator : Char} :
      IsBlankText leading → (∀ char ∈ keyword, isBlank char = false) → isBlank separator = true →
      EndsVisibly operands → IsBlankText trailing →
      LiesIn ⟨keyword, byteLength leading, operands, byteLength (leading ++ keyword ++ [separator])⟩
        (leading ++ keyword ++ [separator] ++ operands ++ trailing)

variable {chars : List Char} {parts : StatementParts}

theorem LiesIn.keyword_standsAt (lies : parts.LiesIn chars) :
    StandsAt chars parts.keyword parts.keywordOffset := by
  cases lies with
  | keywordAlone => exact standsAt_append _ _ _
  | @withOperands leading keyword operands trailing separator =>
      exact ⟨leading, [separator] ++ operands ++ trailing, by simp, rfl⟩

/-- Behind the operands, there is only white space. -/
theorem LiesIn.exists_operands (lies : parts.LiesIn chars) :
    ∃ front trailing, chars = front ++ parts.operands ++ trailing ∧
      byteLength front = parts.operandsOffset ∧ IsBlankText trailing := by
  cases lies with
  | keywordAlone _ _ blank => exact ⟨_, _, by rw [List.append_nil], rfl, blank⟩
  | withOperands _ _ _ _ blank => exact ⟨_, _, rfl, rfl, blank⟩

theorem LiesIn.operands_standsAt (lies : parts.LiesIn chars) :
    StandsAt chars parts.operands parts.operandsOffset := by
  obtain ⟨front, trailing, same, reached, -⟩ := lies.exists_operands
  exact ⟨front, trailing, same, reached⟩

section Parts

variable {leading keyword operands : List Char} {separator : Char}

theorem ofChars_of_uncut (start : chars = leading ++ trimStart chars)
    (uncut : cutAtFirst isBlank (trimChars chars) = none) :
    ofChars chars =
      ⟨trimChars chars, byteLength leading, [], byteLength (leading ++ trimChars chars)⟩ := by
  have before := congrArg byteLength start
  rw [byteLength_append] at before
  have offset : byteLength chars - byteLength (trimStart chars) = byteLength leading := by omega
  simp [ofChars, uncut, offset]

theorem ofChars_of_cut (start : chars = leading ++ trimStart chars)
    (cut : cutAtFirst isBlank (trimChars chars) = some (keyword, operands))
    (body : trimChars chars = keyword ++ [separator] ++ operands) :
    ofChars chars =
      ⟨keyword, byteLength leading, operands, byteLength (leading ++ keyword ++ [separator])⟩ := by
  have before := congrArg byteLength start
  have inside := congrArg byteLength body
  simp only [byteLength_append] at before inside
  have offset : byteLength chars - byteLength (trimStart chars) = byteLength leading := by omega
  have reached : byteLength leading + (byteLength (trimChars chars) - byteLength operands) =
      byteLength (leading ++ keyword ++ [separator]) := by
    simp only [byteLength_append]
    omega
  simp only [ofChars, cut, Option.getD_some, offset, reached]

end Parts

/-- Every text is laid out as it is taken apart. -/
theorem liesIn_ofChars (chars : List Char) : (ofChars chars).LiesIn chars := by
  obtain ⟨leading, blank, start⟩ := exists_trimStart chars
  obtain ⟨trailing, blankEnd, body⟩ := exists_trimEnd (trimStart chars)
  rw [← trimChars] at body
  rcases cutAtFirst_cases isBlank (trimChars chars) with
    ⟨uncut, visible⟩ | ⟨keyword, separator, operands, cut, trimmed, atSeparator, visible⟩
  · have whole : chars = leading ++ trimChars chars ++ trailing := by
      rw [List.append_assoc, ← body, ← start]
    have lies := LiesIn.keywordAlone blank visible blankEnd
    rwa [← whole, ← ofChars_of_uncut start uncut] at lies
  · have ends : EndsVisibly operands :=
      endsVisibly_of_isTrimmed (trimmed ▸ isTrimmed_trimChars chars) atSeparator
    rw [List.append_cons] at trimmed
    have whole : chars = leading ++ keyword ++ [separator] ++ operands ++ trailing := by
      conv_lhs => rw [start, body, trimmed]
      simp only [List.append_assoc]
    have lies := LiesIn.withOperands blank visible atSeparator ends blankEnd
    rwa [← whole, ← ofChars_of_cut start cut trimmed] at lies

/-- A keyword is found just where it lies. -/
theorem LiesIn.eq_ofChars (lies : parts.LiesIn chars) (nonempty : parts.keyword ≠ []) :
    ofChars chars = parts := by
  cases lies with
  | @keywordAlone leading keyword trailing blank visible blankEnd =>
      have trimmed : IsTrimmed keyword :=
        ⟨fun char isFirst => visible char (List.mem_of_head? isFirst),
          fun char isLast => visible char (List.mem_of_getLast? isLast)⟩
      have start : trimStart (leading ++ (keyword ++ trailing)) = keyword ++ trailing :=
        trimStart_of_trimmed blank trimmed nonempty
      have body := trimChars_of_trimmed blank trimmed nonempty blankEnd
      have uncut : cutAtFirst isBlank (trimChars (leading ++ (keyword ++ trailing))) = none := by
        rw [body]
        exact cutAtFirst_eq_none visible
      have found := ofChars_of_uncut (congrArg (leading ++ ·) start.symm) uncut
      rwa [body, ← List.append_assoc] at found
  | @withOperands leading keyword operands trailing separator blank visible atSeparator ends blankEnd =>
      have someKeyword : keyword ≠ [] := nonempty
      have trimmed := isTrimmed_joined separator someKeyword visible ends
      have someBody : keyword ++ separator :: operands ≠ [] := by simp
      have start : trimStart (leading ++ (keyword ++ separator :: operands ++ trailing)) =
          keyword ++ separator :: operands ++ trailing :=
        trimStart_of_trimmed blank trimmed someBody
      have body := trimChars_of_trimmed blank trimmed someBody blankEnd
      have cut : cutAtFirst isBlank
          (trimChars (leading ++ (keyword ++ separator :: operands ++ trailing))) =
            some (keyword, operands) := by
        rw [body]
        exact cutAtFirst_append visible atSeparator
      have found := ofChars_of_cut (congrArg (leading ++ ·) start.symm) cut
        (body.trans (List.append_cons _ _ _))
      simpa using found

end StatementParts

end Ergo
