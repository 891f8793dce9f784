import Ergo.Proofs.Argument.Pattern

/-!
What a match of a pattern is. A filling says for each word of a sentence whether it fills a slot or is
left out. It fits if only articles are left out and the other words fill the slots one by one. A
pattern matches just if some filling fits, and it captures by the preferred one, which at the first
word that another filling treats otherwise fills a slot (`isSome_match?_iff`, `match?_of_fitsBest`).
-/

namespace Ergo.Argument

variable {pattern slots : Pattern} {slot : Slot} {word : String}
  {words captures : List String} {fills filling other : List Bool}

/-! ## Fillings -/

/-- The words that fill slots. -/
def keptWords : List String → List Bool → List String
  | word :: words, true :: filling => word :: keptWords words filling
  | _ :: words, false :: filling => keptWords words filling
  | _, _ => []

def leftOutWords (words : List String) (filling : List Bool) : List String :=
  keptWords words (filling.map not)

/-- One decision for each word: what is left out are articles, and the rest fills the slots. -/
structure Pattern.Fits (pattern : Pattern) (words : List String) (filling : List Bool) : Prop where
  length_eq : filling.length = words.length
  articles : ∀ word ∈ leftOutWords words filling, word ∈ articles
  fills : pattern.FilledBy (keptWords words filling)

/-- At the first word that the fillings treat differently, the first one fills a slot. -/
def Prefers (filling other : List Bool) : Prop :=
  ∃ shared later otherLater,
    filling = shared ++ true :: later ∧ other = shared ++ false :: otherLater

/-- The filling fits, and is preferred to all others that do. -/
structure Pattern.FitsBest (pattern : Pattern) (words : List String) (filling : List Bool) : Prop where
  fits : pattern.Fits words filling
  prefers : ∀ other, pattern.Fits words other → other = filling ∨ Prefers filling other

/-- The words in the slots that take any word. -/
def Pattern.capturesOf (pattern : Pattern) (kept : List String) : List String :=
  ((pattern.zip kept).filter fun pair => pair.1 = .any).map Prod.snd

theorem keptWords_subset (words : List String) (filling : List Bool) :
    keptWords words filling ⊆ words := by
  induction words generalizing filling with
  | nil => cases filling <;> exact List.Subset.refl []
  | cons word words induction =>
      cases filling with
      | nil => exact List.nil_subset _
      | cons fills filling =>
          cases fills with
          | true => exact List.cons_subset_cons word (induction filling)
          | false => exact List.subset_cons_of_subset word (induction filling)

theorem prefers_cons (fills : Bool) (prefers : Prefers filling other) :
    Prefers (fills :: filling) (fills :: other) := by
  obtain ⟨shared, later, otherLater, rfl, rfl⟩ := prefers
  exact ⟨fills :: shared, later, otherLater, rfl, rfl⟩

theorem Prefers.not_symm (prefers : Prefers filling other) : ¬ Prefers other filling := by
  obtain ⟨shared, later, otherLater, rfl, rfl⟩ := prefers
  induction shared with
  | nil =>
      rintro ⟨shared, _, _, isFilling, isOther⟩
      cases shared with
      | nil => cases isFilling
      | cons first shared =>
          rw [List.nil_append, List.cons_append, List.cons.injEq] at isFilling isOther
          cases isFilling.1.trans isOther.1.symm
  | cons first shared induction =>
      rintro ⟨others, otherTail, tail, isFilling, isOther⟩
      cases others with
      | nil =>
          rw [List.nil_append, List.cons_append, List.cons.injEq] at isFilling isOther
          cases isFilling.1.symm.trans isOther.1
      | cons second others =>
          rw [List.cons_append, List.cons_append, List.cons.injEq] at isFilling isOther
          exact induction ⟨others, otherTail, tail, isFilling.2, isOther.2⟩

theorem Pattern.FitsBest.eq (best : pattern.FitsBest words filling)
    (otherBest : pattern.FitsBest words other) : other = filling := by
  rcases best.prefers other otherBest.fits with same | prefers
  · exact same
  · rcases otherBest.prefers filling best.fits with same | otherPrefers
    · exact same.symm
    · exact absurd otherPrefers prefers.not_symm

/-! ## Fitting word by word -/

theorem Pattern.fits_nil_iff : pattern.Fits [] filling ↔ pattern = [] ∧ filling = [] := by
  constructor
  · rintro ⟨length_eq, -, fills⟩
    cases List.length_eq_zero_iff.mp length_eq
    exact ⟨List.forall₂_nil_right_iff.mp fills, rfl⟩
  · rintro ⟨rfl, rfl⟩
    exact ⟨rfl, List.forall_mem_nil _, .nil⟩

theorem Pattern.fits_leaveOut_iff : pattern.Fits (word :: words) (false :: filling) ↔
    word ∈ articles ∧ pattern.Fits words filling := by
  constructor
  · rintro ⟨length_eq, isArticle, fills⟩
    obtain ⟨own, later⟩ := List.forall_mem_cons.mp isArticle
    exact ⟨own, Nat.succ.inj length_eq, later, fills⟩
  · rintro ⟨own, length_eq, isArticle, fills⟩
    exact ⟨congrArg Nat.succ length_eq, List.forall_mem_cons.mpr ⟨own, isArticle⟩, fills⟩

theorem Pattern.fits_fill_iff : Fits (slot :: slots) (word :: words) (true :: filling) ↔
    slot.accepts word = true ∧ Fits slots words filling := by
  constructor
  · rintro ⟨length_eq, isArticle, fills⟩
    obtain ⟨accepts, later⟩ := List.forall₂_cons.mp fills
    exact ⟨accepts, Nat.succ.inj length_eq, isArticle, later⟩
  · rintro ⟨accepts, length_eq, isArticle, fills⟩
    exact ⟨congrArg Nat.succ length_eq, isArticle, .cons accepts fills⟩

theorem Pattern.not_fits_fill_nil : ¬ Fits [] (word :: words) (true :: filling) := by
  rintro ⟨-, -, fills⟩
  cases fills

/-- The next slot is filled behind articles that are left out. -/
theorem Pattern.Fits.exists_fill (fits : Pattern.Fits (slot :: slots) words filling) :
    ∃ skipped word later laterFilling, words = skipped ++ word :: later ∧
      skipped ⊆ Argument.articles ∧ slot.accepts word = true ∧ slots.Fits later laterFilling := by
  induction words generalizing filling with
  | nil => cases (fits_nil_iff.mp fits).1
  | cons word words induction =>
      cases filling with
      | nil => cases fits.length_eq
      | cons fills filling =>
          cases fills with
          | true =>
              obtain ⟨accepts, later⟩ := fits_fill_iff.mp fits
              exact ⟨[], word, words, filling, rfl, List.nil_subset _, accepts, later⟩
          | false =>
              obtain ⟨isArticle, later⟩ := fits_leaveOut_iff.mp fits
              obtain ⟨skipped, next, rest, laterFilling, rfl, areArticles, filled⟩ := induction later
              exact ⟨word :: skipped, next, rest, laterFilling, rfl,
                List.cons_subset.mpr ⟨isArticle, areArticles⟩, filled⟩

theorem Pattern.Fits.exists_later {front : Pattern}
    (fits : Pattern.Fits (front ++ slots) words filling) :
    ∃ before later laterFilling, words = before ++ later ∧ slots.Fits later laterFilling := by
  induction front generalizing words filling with
  | nil => exact ⟨[], words, filling, rfl, fits⟩
  | cons slot front induction =>
      obtain ⟨skipped, word, rest, restFilling, rfl, -, -, restFits⟩ := fits.exists_fill
      obtain ⟨before, later, laterFilling, rfl, laterFits⟩ := induction restFits
      exact ⟨skipped ++ word :: before, later, laterFilling, by simp, laterFits⟩

theorem Pattern.capturesOf_cons (slot : Slot) (slots : Pattern) (word : String) (kept : List String) :
    Pattern.capturesOf (slot :: slots) (word :: kept) =
      slot.captured word ++ Pattern.capturesOf slots kept := by
  cases slot <;> rfl

theorem Pattern.length_capturesOf {kept : List String} (fills : pattern.FilledBy kept) :
    (pattern.capturesOf kept).length = pattern.count .any := by
  induction fills with
  | nil => rfl
  | @cons slot word slots kept _ _ induction =>
      rw [capturesOf_cons, List.length_append, induction, List.count_cons, Nat.add_comm]
      cases slot <;> rfl

/-! ## The match that is found -/

theorem Pattern.match?_nil_cons (word : String) (words : List String) :
    Pattern.match? [] (word :: words) = if articles.contains word then match? [] words else none := by
  rw [match?, Option.none_or]

theorem Pattern.leftOut_eq_none (isArticle : word ∈ articles)
    (unmatched : pattern.match? (word :: words) = none) : pattern.match? words = none := by
  rw [← List.contains_iff_mem] at isArticle
  cases pattern with
  | nil => rwa [match?_nil_cons, if_pos isArticle] at unmatched
  | cons slot slots =>
      rw [match?_cons, Option.or_eq_none_iff, if_pos isArticle] at unmatched
      exact unmatched.2

theorem Pattern.filled_eq_none (accepts : slot.accepts word = true)
    (unmatched : Pattern.match? (slot :: slots) (word :: words) = none) :
    slots.match? words = none := by
  rw [match?_cons, Option.or_eq_none_iff, if_pos accepts, Option.map_eq_none_iff] at unmatched
  exact unmatched.1

theorem Pattern.not_fits_of_match? (unmatched : pattern.match? words = none) (filling : List Bool) :
    ¬ pattern.Fits words filling := by
  induction words generalizing pattern filling with
  | nil =>
      rw [fits_nil_iff]
      rintro ⟨rfl, -⟩
      cases unmatched
  | cons word words induction =>
      intro fits
      cases filling with
      | nil => cases fits.length_eq
      | cons fills filling =>
          cases fills with
          | true =>
              cases pattern with
              | nil => exact not_fits_fill_nil fits
              | cons slot slots =>
                  obtain ⟨accepts, later⟩ := fits_fill_iff.mp fits
                  exact induction (filled_eq_none accepts unmatched) filling later
          | false =>
              obtain ⟨isArticle, later⟩ := fits_leaveOut_iff.mp fits
              exact induction (leftOut_eq_none isArticle unmatched) filling later

theorem Pattern.FitsBest.fill (accepts : slot.accepts word = true)
    (best : slots.FitsBest words filling) :
    FitsBest (slot :: slots) (word :: words) (true :: filling) := by
  refine ⟨fits_fill_iff.mpr ⟨accepts, best.fits⟩, fun other fits => ?_⟩
  cases other with
  | nil => cases fits.length_eq
  | cons fills other =>
      cases fills with
      | true =>
          refine (best.prefers other (fits_fill_iff.mp fits).2).imp ?_ (prefers_cons true)
          rintro rfl
          rfl
      | false => exact .inr ⟨[], filling, other, rfl, rfl⟩

/-- A word is left out only if no filling that fits keeps it. -/
theorem Pattern.FitsBest.leaveOut (isArticle : word ∈ articles)
    (unfilled : ∀ other, ¬ pattern.Fits (word :: words) (true :: other))
    (best : pattern.FitsBest words filling) :
    pattern.FitsBest (word :: words) (false :: filling) := by
  refine ⟨fits_leaveOut_iff.mpr ⟨isArticle, best.fits⟩, fun other fits => ?_⟩
  cases other with
  | nil => cases fits.length_eq
  | cons fills other =>
      cases fills with
      | true => exact absurd fits (unfilled other)
      | false =>
          refine (best.prefers other (fits_leaveOut_iff.mp fits).2).imp ?_ (prefers_cons false)
          rintro rfl
          rfl

theorem Pattern.exists_fitsBest (matched : pattern.match? words = some captures) :
    ∃ filling, pattern.FitsBest words filling ∧
      captures = pattern.capturesOf (keptWords words filling) := by
  induction words generalizing pattern captures with
  | nil =>
      cases pattern with
      | nil =>
          cases matched
          refine ⟨[], ⟨fits_nil_iff.mpr ⟨rfl, rfl⟩, fun other fits => ?_⟩, rfl⟩
          exact .inl (fits_nil_iff.mp fits).2
      | cons slot slots => cases matched
  | cons word words induction =>
      cases pattern with
      | nil =>
          rw [match?_nil_cons] at matched
          split at matched
          · next isArticle =>
              obtain ⟨filling, best, same⟩ := induction matched
              exact ⟨false :: filling, best.leaveOut (List.contains_iff_mem.mp isArticle)
                fun _ => not_fits_fill_nil, same⟩
          · cases matched
      | cons slot slots =>
          rw [match?_cons] at matched
          rcases Option.or_eq_some_iff.mp matched with filled | ⟨unfilled, skipped⟩
          · split at filled
            · next accepts =>
                obtain ⟨later, laterMatched, rfl⟩ := Option.map_eq_some_iff.mp filled
                obtain ⟨filling, best, rfl⟩ := induction laterMatched
                exact ⟨true :: filling, best.fill accepts, (capturesOf_cons slot slots word _).symm⟩
            · cases filled
          · split at skipped
            · next isArticle =>
                obtain ⟨filling, best, same⟩ := induction skipped
                refine ⟨false :: filling,
                  best.leaveOut (List.contains_iff_mem.mp isArticle) fun other fits => ?_, same⟩
                obtain ⟨accepts, later⟩ := fits_fill_iff.mp fits
                rw [if_pos accepts, Option.map_eq_none_iff] at unfilled
                exact not_fits_of_match? unfilled other later
            · cases skipped

theorem Pattern.isSome_match?_iff :
    (pattern.match? words).isSome = true ↔ ∃ filling, pattern.Fits words filling := by
  constructor
  · intro matched
    obtain ⟨captures, found⟩ := Option.isSome_iff_exists.mp matched
    obtain ⟨filling, best, -⟩ := exists_fitsBest found
    exact ⟨filling, best.fits⟩
  · rintro ⟨filling, fits⟩
    rw [Option.isSome_iff_ne_none]
    exact fun unmatched => not_fits_of_match? unmatched filling fits

theorem Pattern.match?_of_fitsBest (best : pattern.FitsBest words filling) :
    pattern.match? words = some (pattern.capturesOf (keptWords words filling)) := by
  obtain ⟨captures, found⟩ := Option.isSome_iff_exists.mp (isSome_match?_iff.mpr ⟨filling, best.fits⟩)
  obtain ⟨other, otherBest, rfl⟩ := exists_fitsBest found
  rw [found, best.eq otherBest]

/-- A pattern matches just if some filling fits; the captures are the words that the preferred filling
has in the slots for any word, one for each such slot. -/
theorem Pattern.matches_by_preferred_filling (pattern : Pattern) (words : List String) :
    ((pattern.match? words).isSome = true ↔ ∃ filling, pattern.Fits words filling) ∧
    ∀ captures, pattern.match? words = some captures ↔
      ∃ filling, pattern.FitsBest words filling ∧
        captures = pattern.capturesOf (keptWords words filling) ∧
        captures.length = pattern.count .any := by
  refine ⟨isSome_match?_iff, fun captures => ⟨fun matched => ?_, ?_⟩⟩
  · obtain ⟨filling, best, rfl⟩ := exists_fitsBest matched
    exact ⟨filling, best, rfl, length_capturesOf best.fits.fills⟩
  · rintro ⟨filling, best, rfl, -⟩
    exact match?_of_fitsBest best

example : Pattern.match? [.any, .word ["is"], .word ["human"]] ["the", "a", "is", "a", "human"] =
    some ["the"] := by
  decide

end Ergo.Argument
