import Ergo.Proofs.Argument.Matching
import Ergo.Proofs.Argument.StatedRelations
import Ergo.Proofs.Text.Words
import Mathlib.Data.List.Infix

/-!
Key words of curated arguments. A sentence that matches a pattern has a word from each of its slots,
and whatever such a word contains the sentence contains too (`contains_of_match?`); words of
neighbouring slots stand together but for articles (`contains_of_adjoins`). So an argument of the
structure of a case has its key words, unless it is worded in a way that only the patterns of the case
know.
-/

namespace Ergo.Argument

open Ergo.Text

variable {pattern : Pattern} {text : CaseText} {options : List String} {needle sentence : String}
  {names : CaseNames}

/-! ## Words of a matching sentence -/

theorem contains_of_mem_caseWords {word : String} (member : word ∈ caseWords sentence)
    (inside : contains word needle = true) : contains sentence needle = true := by
  obtain ⟨run, isRun, rfl⟩ := List.mem_map.mp member
  rw [contains_iff_isInfix, String.toList_ofList] at inside
  exact contains_iff_isInfix.mpr (inside.trans (infix_of_mem_runs isRun))

/-- One of the slots takes only words that contain the text. -/
def Pattern.requires (pattern : Pattern) (needle : String) : Bool :=
  pattern.any fun
    | .word options => options.all fun option => contains option needle
    | .any => false

theorem contains_of_match? (matched : (pattern.match? (caseWords sentence)).isSome = true)
    (requires : pattern.requires needle = true) : contains sentence needle = true := by
  obtain ⟨filling, fits⟩ := Pattern.isSome_match?_iff.mp matched
  obtain ⟨slot, listed, required⟩ := List.any_eq_true.mp requires
  obtain ⟨word, kept, accepts⟩ := exists_mem_right_of_forall₂ fits.fills listed
  cases slot with
  | word options =>
      exact contains_of_mem_caseWords (keptWords_subset _ _ kept)
        (List.all_eq_true.mp required word (List.contains_iff_mem.mp accepts))
  | any => cases required

namespace CaseText

theorem exists_premise_of_statesAny (states : text.statesAny pattern = true) :
    ∃ premise ∈ text.premises, (pattern.match? (caseWords premise)).isSome = true := by
  rw [statesAny, Bool.not_eq_true', List.isEmpty_eq_false_iff_exists_mem] at states
  obtain ⟨captures, found⟩ := states
  obtain ⟨premise, listed, matched⟩ := List.mem_filterMap.mp found
  exact ⟨premise, listed, by rw [matched]; rfl⟩

theorem statesAny_of_mem_premisePairs {pair : String × String}
    (member : pair ∈ text.premisePairs pattern) : text.statesAny pattern = true := by
  obtain ⟨captures, isMatch, -⟩ := List.mem_filterMap.mp member
  rw [statesAny, Bool.not_eq_true', List.isEmpty_eq_false_iff_exists_mem]
  exact ⟨captures, isMatch⟩

theorem concludes_of_conclusionPair? {pair : String × String}
    (found : text.conclusionPair? pattern = some pair) : text.concludes pattern = true := by
  rw [conclusionPair?] at found
  split at found
  · next matched => rw [concludes, matched]; rfl
  · cases found

theorem premiseContains_of_statesAny (states : text.statesAny pattern = true)
    (requires : pattern.requires needle = true) : text.premiseContains needle = true := by
  obtain ⟨premise, isPremise, matched⟩ := exists_premise_of_statesAny states
  exact List.any_eq_true.mpr ⟨premise, isPremise, contains_of_match? matched requires⟩

theorem conclusionContains_of_concludes (concludes : text.concludes pattern = true)
    (requires : pattern.requires needle = true) : text.conclusionContains needle = true :=
  contains_of_match? concludes requires

/-- A conclusion that matches a pattern matches with one word in each slot. -/
theorem exists_concludes_chosenFrom (concludes : text.concludes pattern = true) :
    ∃ narrow : Pattern, narrow.ChosenFrom pattern ∧ text.concludes narrow = true := by
  obtain ⟨captures, matched⟩ := Option.isSome_iff_exists.mp concludes
  obtain ⟨narrow, isChosen, narrowMatched⟩ := pattern.exists_chosenFrom matched
  exact ⟨narrow, isChosen, Option.isSome_iff_exists.mpr ⟨captures, narrowMatched⟩⟩

end CaseText

/-! ## Words that adjoin -/

/-- Where nothing but articles stands between the two words, they are one blank apart. -/
def Adjoins (first second sentence : String) : Prop :=
  ∀ before gap after, sentence = before ++ first ++ gap ++ second ++ after →
    caseWords sentence = caseWords before ++ first :: (caseWords gap ++ second :: caseWords after) →
    caseWords gap ⊆ articles → gap = " "

/-- The places where the two words may stand are finitely many. -/
theorem adjoins_iff {first second : String} : Adjoins first second sentence ↔
    ∀ before ∈ sentence.toList.inits,
      ∀ gap ∈ (sentence.toList.drop (before ++ first.toList).length).inits,
        let after := sentence.toList.drop (before ++ first.toList ++ gap ++ second.toList).length
        sentence.toList = before ++ first.toList ++ gap ++ second.toList ++ after →
          caseWords sentence = caseWords (.ofList before) ++
            first :: (caseWords (.ofList gap) ++ second :: caseWords (.ofList after)) →
            caseWords (.ofList gap) ⊆ articles → gap = [' '] := by
  constructor
  · intro adjoins before _ gap _ after split words areArticles
    have joined : sentence = .ofList before ++ first ++ .ofList gap ++ second ++ .ofList after := by
      rw [← String.toList_inj]
      simpa using split
    have oneBlank := adjoins _ _ _ joined words areArticles
    rw [← String.toList_inj, String.toList_ofList] at oneBlank
    exact oneBlank
  · intro each before gap after split words areArticles
    have isSplit : sentence.toList =
        before.toList ++ first.toList ++ gap.toList ++ second.toList ++ after.toList := by
      simp [split]
    have isAfter : sentence.toList.drop
        (before.toList ++ first.toList ++ gap.toList ++ second.toList).length = after.toList := by
      rw [isSplit, List.drop_left]
    have oneBlank := each before.toList (by simp [isSplit]) gap.toList (by simp [isSplit])
    rw [isAfter] at oneBlank
    simp only [String.ofList_toList] at oneBlank
    rw [← String.toList_inj]
    exact oneBlank isSplit words areArticles

instance (first second sentence : String) : Decidable (Adjoins first second sentence) :=
  decidable_of_iff _ adjoins_iff.symm

example : Adjoins "greater" "than" "a is greater than b." := by decide +kernel

theorem exists_split_of_caseWords {front later : List String} {word : String}
    (cut : caseWords sentence = front ++ word :: later) :
    ∃ before after, sentence = before ++ word ++ after ∧
      caseWords before = front ∧ caseWords after = later := by
  obtain ⟨fronts, rest, runsEq, rfl, isRest⟩ := List.map_eq_append_iff.mp cut
  obtain ⟨run, laters, rfl, rfl, rfl⟩ := List.map_eq_cons_iff.mp isRest
  obtain ⟨before, after, same, isFront, isLater⟩ := exists_split_of_runs runsEq
  refine ⟨.ofList before, .ofList after, ?_, ?_, ?_⟩
  · rw [← String.ofList_append, ← String.ofList_append, ← same, String.ofList_toList]
  · rw [caseWords, String.toList_ofList, isFront]
  · rw [caseWords, String.toList_ofList, isLater]

/-- The words of neighbouring slots have only articles between them, so they adjoin. -/
theorem contains_of_adjoins (front : Pattern) {later : Pattern} {first second : String}
    (adjoins : Adjoins first second sentence)
    (matched : (Pattern.match? (front ++ .word [first] :: .word [second] :: later)
      (caseWords sentence)).isSome = true) :
    contains sentence (first ++ " " ++ second) = true := by
  obtain ⟨filling, fits⟩ := Pattern.isSome_match?_iff.mp matched
  obtain ⟨before, words, rest, split, frontFits⟩ := fits.exists_later
  obtain ⟨skipped, word, words, rest, rfl, -, isFirst, firstFits⟩ := frontFits.exists_fill
  obtain ⟨between, other, after, rest, rfl, areArticles, isSecond, -⟩ := firstFits.exists_fill
  obtain rfl := List.mem_singleton.mp (List.contains_iff_mem.mp isFirst)
  obtain rfl := List.mem_singleton.mp (List.contains_iff_mem.mp isSecond)
  rw [← List.append_assoc] at split
  obtain ⟨opening, behind, rfl, isOpening, isBehind⟩ := exists_split_of_caseWords split
  obtain ⟨gap, closing, rfl, isGap, isClosing⟩ := exists_split_of_caseWords isBehind
  have oneBlank : gap = " " := by
    refine adjoins opening gap closing ?_ ?_ (isGap ▸ areArticles)
    · simp only [String.append_assoc]
    · rw [split, isOpening, isGap, isClosing]
  subst oneBlank
  rw [contains_iff_isInfix]
  exact ⟨opening.toList, closing.toList, by simp⟩

/-! ## Key words of each case -/

namespace CuratedCase

/-- Where the patterns of the case know other words than its key words, or do not see what stands between
words, the argument is worded with the key words. -/
def UsesKeyWords (text : CaseText) : CuratedCase → Prop
  | .mortality | .ancestry => True
  | .flight => text.concludes [.word ["bird"], .word ["can't"], .word ["fly"]] = false
  | .membership => text.concludes (isOf ["member"]) = false
  | .comparison => Adjoins "greater" "than" text.conclusion ∧
      ∃ premise ∈ text.premises, (isGreaterThan.match? (caseWords premise)).isSome = true ∧
        Adjoins "greater" "than" premise

instance (text : CaseText) : (curated : CuratedCase) → Decidable (curated.UsesKeyWords text)
  | .mortality | .ancestry => inferInstanceAs (Decidable True)
  | .flight | .membership => inferInstanceAs (Decidable (_ = false))
  | .comparison => inferInstanceAs (Decidable (_ ∧ ∃ premise ∈ _, _))

theorem exists_concludes_isOf {nouns : List String} (concludes : text.concludes (isOf nouns) = true) :
    ∃ noun ∈ nouns, text.concludes (isOf [noun]) = true := by
  obtain ⟨narrow, isChosen, narrowConcludes⟩ := CaseText.exists_concludes_chosenFrom concludes
  obtain _ | @⟨_, _, _, _, ⟨⟩, _ | @⟨_, _, _, _, ⟨isCopula⟩, _ | @⟨_, _, _, _, ⟨isNoun⟩,
    _ | @⟨_, _, _, _, ⟨isPreposition⟩, _ | @⟨_, _, _, _, ⟨⟩, _ | _⟩⟩⟩⟩⟩ := isChosen
  obtain rfl := List.mem_singleton.mp isCopula
  obtain rfl := List.mem_singleton.mp isPreposition
  exact ⟨_, isNoun, narrowConcludes⟩

theorem concludes_cannot (concludes : text.concludes birdCannotFly = true) :
    text.concludes [.word ["bird"], .word ["cannot"], .word ["fly"]] = true ∨
      text.concludes [.word ["bird"], .word ["can't"], .word ["fly"]] = true := by
  obtain ⟨narrow, isChosen, narrowConcludes⟩ := CaseText.exists_concludes_chosenFrom concludes
  obtain _ | @⟨_, _, _, _, ⟨isBird⟩, _ | @⟨_, _, _, _, ⟨isVerb⟩, _ | @⟨_, _, _, _, ⟨isFly⟩, _ | _⟩⟩⟩ :=
    isChosen
  obtain rfl := List.mem_singleton.mp isBird
  obtain rfl := List.mem_singleton.mp isFly
  simp only [List.mem_cons, List.not_mem_nil, or_false] at isVerb
  rcases isVerb with rfl | rfl
  · exact .inl narrowConcludes
  · exact .inr narrowConcludes

theorem hasKeywords_mortality (found : mortality.structure? text = some names) :
    mortality.hasKeywords text = true := by
  rw [structure?, Option.ite_none_right_eq_some] at found
  simp only [Bool.and_eq_true] at found
  obtain ⟨⟨⟨-, human⟩, mortal⟩, -⟩ := found
  rw [hasKeywords, Bool.and_eq_true]
  exact ⟨CaseText.premiseContains_of_statesAny human (by decide),
    CaseText.conclusionContains_of_concludes mortal (by decide)⟩

theorem hasKeywords_flight (uses : flight.UsesKeyWords text)
    (found : flight.structure? text = some names) : flight.hasKeywords text = true := by
  rw [structure?, Option.ite_none_right_eq_some] at found
  simp only [Bool.and_eq_true, Bool.or_eq_true] at found
  obtain ⟨⟨birds, flightless⟩, -⟩ := found
  have isBird : text.premiseContains "bird" = true :=
    CaseText.premiseContains_of_statesAny birds (by decide)
  rw [hasKeywords, Bool.and_eq_true, Bool.and_eq_true]
  rcases flightless with apart | joined
  · exact ⟨⟨isBird, CaseText.conclusionContains_of_concludes apart (by decide)⟩,
      CaseText.conclusionContains_of_concludes apart (by decide)⟩
  · rcases concludes_cannot joined with cannot | contracted
    · exact ⟨⟨isBird, CaseText.conclusionContains_of_concludes cannot (by decide)⟩,
        CaseText.conclusionContains_of_concludes cannot (by decide)⟩
    · cases uses.symm.trans contracted

theorem hasKeywords_membership (uses : membership.UsesKeyWords text)
    (found : membership.structure? text = some names) : membership.hasKeywords text = true := by
  simp only [structure?, bind, Option.bind_eq_some_iff] at found
  obtain ⟨goal, isGoal, included⟩ := found
  obtain ⟨part, isSubset, -, -⟩ := exists_of_inclusion? included
  rw [hasKeywords, Bool.and_eq_true]
  constructor
  · exact CaseText.premiseContains_of_statesAny (CaseText.statesAny_of_mem_premisePairs isSubset)
      (by decide)
  · obtain ⟨noun, listed, concludes⟩ :=
      exists_concludes_isOf (CaseText.concludes_of_conclusionPair? isGoal)
    simp only [List.mem_cons, List.not_mem_nil, or_false] at listed
    rcases listed with rfl | rfl
    · exact CaseText.conclusionContains_of_concludes concludes (by decide)
    · cases uses.symm.trans concludes

theorem hasKeywords_comparison (uses : comparison.UsesKeyWords text)
    (found : comparison.structure? text = some names) : comparison.hasKeywords text = true := by
  have adjoined {sentence : String} (adjoins : Adjoins "greater" "than" sentence)
      (matched : (isGreaterThan.match? (caseWords sentence)).isSome = true) :
      contains sentence "greater than" = true :=
    contains_of_adjoins [.any, .word ["is"]] adjoins matched
  simp only [structure?, bind, Option.bind_eq_some_iff] at found
  obtain ⟨goal, isGoal, -⟩ := found
  obtain ⟨ownAdjoins, premise, isPremise, matched, adjoins⟩ := uses
  rw [hasKeywords, Bool.and_eq_true]
  exact ⟨List.any_eq_true.mpr ⟨premise, isPremise, adjoined adjoins matched⟩,
    adjoined ownAdjoins (CaseText.concludes_of_conclusionPair? isGoal)⟩

theorem hasKeywords_ancestry (found : ancestry.structure? text = some names) :
    ancestry.hasKeywords text = true := by
  simp only [structure?, bind, Option.bind_eq_some_iff] at found
  obtain ⟨goal, isGoal, chained⟩ := found
  obtain ⟨middle, isStep, -, -⟩ := exists_of_chain? chained
  rw [hasKeywords, Bool.and_eq_true, Bool.or_eq_true]
  constructor
  · exact CaseText.premiseContains_of_statesAny (CaseText.statesAny_of_mem_premisePairs isStep)
      (by decide)
  · obtain ⟨noun, listed, concludes⟩ :=
      exists_concludes_isOf (CaseText.concludes_of_conclusionPair? isGoal)
    simp only [List.mem_cons, List.not_mem_nil, or_false] at listed
    rcases listed with rfl | rfl
    · exact .inl (CaseText.conclusionContains_of_concludes concludes (by decide))
    · exact .inr (CaseText.conclusionContains_of_concludes concludes (by decide))

/-- An argument of the structure of a case has the key words of the case if it uses them. -/
theorem hasKeywords_of_structure? {curated : CuratedCase} {premises : List String}
    {conclusion : String}
    (found : (curated.structure? (CaseText.ofArgument premises conclusion)).isSome = true)
    (uses : curated.UsesKeyWords (CaseText.ofArgument premises conclusion)) :
    curated.hasKeywords (CaseText.ofArgument premises conclusion) = true := by
  obtain ⟨names, isStructure⟩ := Option.isSome_iff_exists.mp found
  cases curated with
  | mortality => exact hasKeywords_mortality isStructure
  | flight => exact hasKeywords_flight uses isStructure
  | membership => exact hasKeywords_membership uses isStructure
  | comparison => exact hasKeywords_comparison uses isStructure
  | ancestry => exact hasKeywords_ancestry isStructure

theorem greaterChain_hasKeywords :
    let text := CaseText.ofArgument ["A is greater than B.", "B is greater than C."]
      "A is greater than C."
    (comparison.structure? text).isSome = true ∧ comparison.UsesKeyWords text ∧
      comparison.hasKeywords text = true := by
  have lowered : CaseText.ofArgument ["A is greater than B.", "B is greater than C."]
      "A is greater than C." =
        ⟨["a is greater than b.", "b is greater than c."], "a is greater than c."⟩ := by
    decide +kernel
  have found : (comparison.structure? (CaseText.ofArgument
      ["A is greater than B.", "B is greater than C."] "A is greater than C.")).isSome = true := by
    rw [lowered]
    decide +kernel
  have uses : comparison.UsesKeyWords (CaseText.ofArgument
      ["A is greater than B.", "B is greater than C."] "A is greater than C.") := by
    rw [lowered]
    decide +kernel
  exact ⟨found, uses, hasKeywords_of_structure? found uses⟩

/-- A contraction, another noun or a comma hides the key words of a case from the search in the text. -/
theorem not_hasKeywords_of_structure? :
    let flightless := CaseText.ofArgument ["All birds can fly."] "The bird can't fly."
    let member := CaseText.ofArgument ["A is a subset of B.", "X is a member of A."]
      "X is a member of B."
    let chain := CaseText.ofArgument ["A is greater, than B.", "B is greater, than C."]
      "A is greater, than C."
    flight.structure? flightless = some [] ∧ flight.hasKeywords flightless = false ∧
      membership.structure? member = some ["x", "a", "b"] ∧ membership.hasKeywords member = false ∧
      comparison.structure? chain = some ["a", "b", "c"] ∧ comparison.hasKeywords chain = false := by
  have flightless : CaseText.ofArgument ["All birds can fly."] "The bird can't fly." =
      ⟨["all birds can fly."], "the bird can't fly."⟩ := by
    decide +kernel
  have member : CaseText.ofArgument ["A is a subset of B.", "X is a member of A."]
      "X is a member of B." =
        ⟨["a is a subset of b.", "x is a member of a."], "x is a member of b."⟩ := by
    decide +kernel
  have chain : CaseText.ofArgument ["A is greater, than B.", "B is greater, than C."]
      "A is greater, than C." =
        ⟨["a is greater, than b.", "b is greater, than c."], "a is greater, than c."⟩ := by
    decide +kernel
  rw [flightless, member, chain]
  decide +kernel

end CuratedCase

end Ergo.Argument
