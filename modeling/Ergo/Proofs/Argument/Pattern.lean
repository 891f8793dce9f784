import Ergo.Argument.Pattern
import Mathlib.Data.List.Forall2

/-!
Matches of patterns. A match fills the slots with words of the sentence in their order and leaves out
articles only, so all other words of the sentence are among those that fill slots. A match with one of
several words in a slot is also the match of the pattern that has just that word there.
-/

namespace Ergo.Argument

variable {pattern narrow : Pattern} {slot chosen : Slot} {word : String}
  {words captures kept : List String}

theorem Pattern.match?_cons (slots : Pattern) :
    Pattern.match? (slot :: slots) (word :: words) =
      (if slot.accepts word then (match? slots words).map (slot.captured word ++ ·) else none).or
        (if articles.contains word then match? (slot :: slots) words else none) := by
  rw [match?]

/-! ## Words that fill slots -/

/-- The words that no match leaves out. -/
def properWords (words : List String) : List String :=
  words.filter fun word => !articles.contains word

/-- The words fill the slots one by one. -/
def Pattern.FilledBy : Pattern → List String → Prop :=
  List.Forall₂ fun slot word => slot.accepts word = true

theorem properWords_of_article (isArticle : articles.contains word = true) :
    properWords (word :: words) = properWords words :=
  List.filter_cons_of_neg (by simpa using isArticle)

theorem properWords_cons_congr (same : properWords kept = properWords words) :
    properWords (word :: kept) = properWords (word :: words) := by
  rw [properWords, properWords, List.filter_cons, List.filter_cons, ← properWords, ← properWords, same]

/-- A match fills the slots with all words but articles. -/
theorem Pattern.exists_filledBy (matched : pattern.match? words = some captures) :
    ∃ kept, pattern.FilledBy kept ∧ properWords kept = properWords words := by
  induction words generalizing pattern captures with
  | nil =>
      cases pattern with
      | nil => exact ⟨[], .nil, rfl⟩
      | cons slot slots => simp [match?] at matched
  | cons word words induction =>
      cases pattern with
      | nil =>
          -- Without slots every word left is an article.
          simp only [match?, Option.none_or] at matched
          split at matched
          · next isArticle =>
              obtain ⟨kept, fills, proper⟩ := induction matched
              exact ⟨kept, fills, proper.trans (properWords_of_article isArticle).symm⟩
          · cases matched
      | cons slot slots =>
          rw [match?_cons] at matched
          rcases Option.or_eq_some_iff.mp matched with filled | ⟨-, skipped⟩
          · split at filled
            · next accepts =>
                obtain ⟨later, laterMatched, -⟩ := Option.map_eq_some_iff.mp filled
                obtain ⟨kept, fills, proper⟩ := induction laterMatched
                exact ⟨word :: kept, .cons accepts fills, properWords_cons_congr proper⟩
            · cases filled
          · split at skipped
            · next isArticle =>
                obtain ⟨kept, fills, proper⟩ := induction skipped
                exact ⟨kept, fills, proper.trans (properWords_of_article isArticle).symm⟩
            · cases skipped

/-! ## Slots with one word -/

/-- The slot has one of the words that another has. -/
inductive Slot.ChosenFrom : Slot → Slot → Prop
  | word {option : String} {options : List String} :
      option ∈ options → ChosenFrom (.word [option]) (.word options)
  | any : ChosenFrom .any .any

/-- The pattern has one of the words in each slot of another. -/
def Pattern.ChosenFrom : Pattern → Pattern → Prop :=
  List.Forall₂ Slot.ChosenFrom

theorem Slot.ChosenFrom.accepts (isChosen : chosen.ChosenFrom slot)
    (accepts : chosen.accepts word = true) : slot.accepts word = true := by
  cases isChosen with
  | word member =>
      simp only [Slot.accepts, List.contains_iff_mem, List.mem_singleton] at accepts ⊢
      exact accepts ▸ member
  | any => rfl

theorem Slot.exists_chosenFrom (accepts : slot.accepts word = true) :
    ∃ chosen : Slot, chosen.ChosenFrom slot ∧ chosen.accepts word = true ∧
      chosen.captured word = slot.captured word := by
  cases slot with
  | word options =>
      exact ⟨.word [word], .word (by simpa [Slot.accepts] using accepts), by simp [Slot.accepts], rfl⟩
  | any => exact ⟨.any, .any, rfl, rfl⟩

theorem Pattern.ChosenFrom.isSome_match? (isChosen : narrow.ChosenFrom pattern)
    (matched : (narrow.match? words).isSome = true) : (pattern.match? words).isSome = true := by
  induction words generalizing narrow pattern with
  | nil =>
      cases isChosen with
      | nil => rfl
      | cons => cases matched
  | cons word words induction =>
      cases isChosen with
      | nil => exact matched
      | @cons chosen slot narrowSlots slots isChosen laterChosen =>
          rw [match?_cons, Option.isSome_or, Bool.or_eq_true] at matched ⊢
          refine matched.imp (fun filled => ?_) fun skipped => ?_
          · split at filled
            · next accepts =>
                rw [if_pos (isChosen.accepts accepts), Option.isSome_map]
                rw [Option.isSome_map] at filled
                exact induction laterChosen filled
            · cases filled
          · split at skipped
            · next isArticle =>
                rw [if_pos isArticle]
                exact induction (.cons isChosen laterChosen) skipped
            · cases skipped

/-- A match captures what the pattern captures that has only the words that were met. -/
theorem Pattern.exists_chosenFrom (matched : pattern.match? words = some captures) :
    ∃ narrow : Pattern, narrow.ChosenFrom pattern ∧ narrow.match? words = some captures := by
  induction words generalizing pattern captures with
  | nil =>
      cases pattern with
      | nil => exact ⟨[], .nil, matched⟩
      | cons slot slots => simp [match?] at matched
  | cons word words induction =>
      cases pattern with
      | nil => exact ⟨[], .nil, matched⟩
      | cons slot slots =>
          rw [match?_cons] at matched
          rcases Option.or_eq_some_iff.mp matched with filled | ⟨unfilled, skipped⟩
          · split at filled
            · next accepts =>
                obtain ⟨later, laterMatched, rfl⟩ := Option.map_eq_some_iff.mp filled
                obtain ⟨narrow, laterChosen, narrowMatched⟩ := induction laterMatched
                obtain ⟨chosen, isChosen, chosenAccepts, sameCapture⟩ :=
                  Slot.exists_chosenFrom accepts
                refine ⟨chosen :: narrow, .cons isChosen laterChosen, ?_⟩
                rw [match?_cons, if_pos chosenAccepts, narrowMatched, sameCapture]
                rfl
            · cases filled
          · -- The word was left out because the wider pattern could not go on with it.
            split at skipped
            · next isArticle =>
                obtain ⟨narrow, isChosen, narrowMatched⟩ := induction skipped
                refine ⟨narrow, isChosen, ?_⟩
                obtain _ | @⟨chosen, _, narrowSlots, _, slotChosen, laterChosen⟩ := isChosen
                rw [match?_cons, if_pos isArticle, narrowMatched, Option.or_eq_some_iff]
                refine .inr ⟨?_, rfl⟩
                split
                · next accepts =>
                    rw [if_pos (slotChosen.accepts accepts), Option.map_eq_none_iff] at unfilled
                    rw [Option.map_eq_none_iff, ← Option.not_isSome_iff_eq_none]
                    intro found
                    have wide := Pattern.ChosenFrom.isSome_match? laterChosen found
                    rw [unfilled] at wide
                    cases wide
                · rfl
            · cases skipped

end Ergo.Argument
