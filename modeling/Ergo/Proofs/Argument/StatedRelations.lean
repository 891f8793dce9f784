import Ergo.Argument.CuratedCase
import Ergo.Proofs.Argument.Definitions
import Ergo.Proofs.Argument.Pattern
import Ergo.Proofs.Lists

/-!
What sentences of the form `X is <noun> of Y` or `X is <noun> than Y` state: the relation that the noun
stands for, between the names of `X` and `Y`. A sentence has at most one such form
(`Phrasing.eq_of_matches`). The program of a curated case with captured names asserts what its premises
state, and concludes what the conclusion states, save that a stated parent is concluded as an ancestor.
-/

namespace Ergo

/-- An atom of names only. -/
def Formula.IsGroundAtom : Formula → Prop
  | .atom _ arguments => ∀ argument ∈ arguments, ∃ name, argument = .constant name
  | _ => False

namespace Argument

open Ergo.English

/-! ## Readings -/

/-- A noun and preposition between two names, and the relation that they state. -/
structure Phrasing where
  noun : String
  preposition : String
  relation : String
  deriving DecidableEq, Repr

def phrasings : List Phrasing := [
  ⟨"subset", "of", "SubsetOf"⟩, ⟨"element", "of", "ElementOf"⟩, ⟨"member", "of", "ElementOf"⟩,
  ⟨"greater", "than", "GreaterThan"⟩, ⟨"parent", "of", "Parent"⟩, ⟨"ancestor", "of", "Ancestor"⟩]

namespace Phrasing

def pattern (phrasing : Phrasing) : Pattern :=
  [.any, .word ["is"], .word [phrasing.noun], .word [phrasing.preposition], .any]

/-- The relation between names that a sentence of this phrasing states. -/
def reading? (phrasing : Phrasing) (sentence : String) : Option Formula :=
  match phrasing.pattern.match? (caseWords (Text.lower sentence)) with
  | some [first, second] => do
      return .link phrasing.relation (← constantName first) (← constantName second)
  | _ => none

end Phrasing

/-- What a sentence states, if it has one of the phrasings. -/
def reading? (sentence : String) : Option Formula :=
  phrasings.findSome? fun phrasing => phrasing.reading? sentence

/-! ## One phrasing for each sentence -/

section Unique

variable {phrasing other : Phrasing} {words kept captures others : List String} {sentence : String}

theorem properWords_singleton (word : String) :
    properWords [word] = [] ∨ properWords [word] = [word] := by
  unfold properWords
  cases isArticle : articles.contains word with
  | true => exact .inl (List.filter_cons_of_neg (by simpa using isArticle))
  | false => exact .inr (List.filter_cons_of_pos (by simpa using isArticle))

/-- The fixed words of a phrasing are not articles, and its noun is not the copula. -/
theorem properWords_fixed : ∀ phrasing ∈ phrasings,
    properWords ["is", phrasing.noun, phrasing.preposition] =
        ["is", phrasing.noun, phrasing.preposition] ∧ phrasing.noun ≠ "is" := by
  decide

theorem eq_of_noun_eq : ∀ phrasing ∈ phrasings, ∀ other ∈ phrasings,
    phrasing.noun = other.noun → phrasing = other := by
  decide

theorem Phrasing.exists_ends (fills : phrasing.pattern.FilledBy kept) :
    ∃ first second, kept = [first, "is", phrasing.noun, phrasing.preposition, second] := by
  obtain _ | @⟨_, first, _, _, -, _ | @⟨_, copula, _, _, isCopula, _ | @⟨_, noun, _, _, isNoun,
    _ | @⟨_, preposition, _, _, isPreposition, _ | @⟨_, second, _, _, -, _ | _⟩⟩⟩⟩⟩ := fills
  simp only [Slot.accepts, List.contains_iff_mem, List.mem_singleton] at isCopula isNoun isPreposition
  exact ⟨first, second, by rw [isCopula, isNoun, isPreposition]⟩

theorem Phrasing.exists_properWords (listed : phrasing ∈ phrasings)
    (matched : phrasing.pattern.match? words = some captures) :
    ∃ first second, properWords words = properWords [first] ++
      ["is", phrasing.noun, phrasing.preposition] ++ properWords [second] := by
  obtain ⟨kept, fills, proper⟩ := Pattern.exists_filledBy matched
  obtain ⟨first, second, rfl⟩ := phrasing.exists_ends fills
  refine ⟨first, second, ?_⟩
  have split : properWords ([first] ++ ["is", phrasing.noun, phrasing.preposition] ++ [second]) =
      properWords [first] ++ properWords ["is", phrasing.noun, phrasing.preposition] ++
        properWords [second] := by
    simp only [properWords, List.filter_append]
  rw [← proper, ← (properWords_fixed phrasing listed).1]
  exact split

/-- Only articles can be left out, so the noun is the one behind the copula. -/
theorem Phrasing.eq_of_matches (listed : phrasing ∈ phrasings) (otherListed : other ∈ phrasings)
    (matched : phrasing.pattern.match? words = some captures)
    (otherMatched : other.pattern.match? words = some others) : phrasing = other := by
  obtain ⟨first, second, proper⟩ := phrasing.exists_properWords listed matched
  obtain ⟨otherFirst, otherSecond, otherProper⟩ := other.exists_properWords otherListed otherMatched
  have notCopula := (properWords_fixed phrasing listed).2
  have otherNotCopula := (properWords_fixed other otherListed).2
  refine eq_of_noun_eq phrasing listed other otherListed ?_
  rw [proper] at otherProper
  rcases properWords_singleton first with left | left <;>
    rcases properWords_singleton otherFirst with otherLeft | otherLeft <;>
    rw [left, otherLeft] at otherProper <;>
    simp at otherProper
  · exact otherProper.1
  · exact absurd otherProper.2.1 notCopula
  · exact absurd otherProper.2.1.symm otherNotCopula
  · exact otherProper.2.1

theorem Phrasing.exists_match?_of_reading? {formula : Formula}
    (reads : phrasing.reading? sentence = some formula) :
    ∃ captures, phrasing.pattern.match? (caseWords (Text.lower sentence)) = some captures := by
  unfold reading? at reads
  split at reads
  · next matched => exact ⟨_, matched⟩
  · cases reads

theorem reading?_of_match? {first second firstName secondName : String}
    (listed : phrasing ∈ phrasings)
    (matched : phrasing.pattern.match? (caseWords (Text.lower sentence)) = some [first, second])
    (firstNamed : constantName first = some firstName)
    (secondNamed : constantName second = some secondName) :
    reading? sentence = some (.link phrasing.relation firstName secondName) := by
  refine findSome?_eq_some_of_unique listed ?_ fun other otherListed formula reads => ?_
  · simp only [Phrasing.reading?, matched, firstNamed, secondNamed]
    rfl
  · obtain ⟨captures, otherMatched⟩ := other.exists_match?_of_reading? reads
    exact Phrasing.eq_of_matches otherListed listed otherMatched matched

end Unique

/-! ## Sentences that match a pattern of several phrasings -/

section Phrases

variable {pattern : Pattern} {relations nouns : List String} {preposition sentence conclusion : String}
  {premises : List String} {pair : String × String} {firstName secondName : String}

/-- With one word in each slot the pattern is that of a phrasing for one of the relations. -/
def Pattern.Phrases (pattern : Pattern) (relations : List String) : Prop :=
  ∀ narrow : Pattern, narrow.ChosenFrom pattern →
    ∃ phrasing ∈ phrasings, phrasing.relation ∈ relations ∧ phrasing.pattern = narrow

theorem Pattern.phrases_nouns
    (listed : ∀ noun ∈ nouns, ∃ phrasing ∈ phrasings, phrasing.relation ∈ relations ∧
      phrasing.noun = noun ∧ phrasing.preposition = preposition) :
    Pattern.Phrases [.any, .word ["is"], .word nouns, .word [preposition], .any] relations := by
  rintro narrow (_ | @⟨_, _, _, _, ⟨⟩, _ | @⟨_, _, _, _, ⟨isCopula⟩, _ | @⟨_, _, _, _, ⟨isNoun⟩,
    _ | @⟨_, _, _, _, ⟨isPreposition⟩, _ | @⟨_, _, _, _, ⟨⟩, _ | _⟩⟩⟩⟩⟩)
  obtain rfl := List.mem_singleton.mp isCopula
  obtain rfl := List.mem_singleton.mp isPreposition
  obtain ⟨phrasing, isPhrasing, isRelation, rfl, rfl⟩ := listed _ isNoun
  exact ⟨phrasing, isPhrasing, isRelation, rfl⟩

/-- The sentence has a phrasing of one of the relations, with these words for the names. -/
def Relates (relations : List String) (sentence : String) (pair : String × String) : Prop :=
  ∃ phrasing ∈ phrasings, phrasing.relation ∈ relations ∧
    phrasing.pattern.match? (caseWords (Text.lower sentence)) = some [pair.1, pair.2]

theorem Pattern.Phrases.relates (phrases : pattern.Phrases relations)
    (matched : pattern.match? (caseWords (Text.lower sentence)) = some [pair.1, pair.2]) :
    Relates relations sentence pair := by
  obtain ⟨narrow, isChosen, narrowMatched⟩ := pattern.exists_chosenFrom matched
  obtain ⟨phrasing, listed, isRelation, rfl⟩ := phrases narrow isChosen
  exact ⟨phrasing, listed, isRelation, narrowMatched⟩

theorem Pattern.Phrases.relates_premise (phrases : pattern.Phrases relations)
    (member : pair ∈ (CaseText.ofArgument premises conclusion).premisePairs pattern) :
    ∃ premise ∈ premises, Relates relations premise pair := by
  obtain ⟨captures, isMatch, isPair⟩ := List.mem_filterMap.mp member
  obtain ⟨text, isText, matched⟩ := List.mem_filterMap.mp isMatch
  obtain ⟨premise, listed, rfl⟩ := List.mem_map.mp isText
  refine ⟨premise, listed, phrases.relates ?_⟩
  split at isPair
  · cases isPair
    exact matched
  · cases isPair

theorem Pattern.Phrases.relates_conclusion (phrases : pattern.Phrases relations)
    (found : (CaseText.ofArgument premises conclusion).conclusionPair? pattern = some pair) :
    Relates relations conclusion pair := by
  rw [CaseText.conclusionPair?] at found
  split at found
  · next matched =>
      cases found
      exact phrases.relates matched
  · cases found

theorem Relates.exists_reading? (relates : Relates relations sentence pair)
    (firstNamed : constantName pair.1 = some firstName)
    (secondNamed : constantName pair.2 = some secondName) :
    ∃ relation ∈ relations, reading? sentence = some (.link relation firstName secondName) := by
  obtain ⟨phrasing, listed, isRelation, matched⟩ := relates
  exact ⟨phrasing.relation, isRelation, reading?_of_match? listed matched firstNamed secondNamed⟩

theorem Relates.reading?_eq {relation : String} (relates : Relates [relation] sentence pair)
    (firstNamed : constantName pair.1 = some firstName)
    (secondNamed : constantName pair.2 = some secondName) :
    reading? sentence = some (.link relation firstName secondName) := by
  obtain ⟨other, isRelation, reads⟩ := relates.exists_reading? firstNamed secondNamed
  rwa [List.mem_singleton.mp isRelation] at reads

end Phrases

/-! ## Programs of cases with captured names -/

namespace CuratedCase

section Programs

variable {premises : List String} {conclusion first second third : String}
  {text : CaseText} {names : CaseNames} {formula : Formula}

theorem exists_of_identifiers? (found : identifiers? [first, second, third] = some names) :
    ∃ firstName secondName thirdName, constantName first = some firstName ∧
      constantName second = some secondName ∧ constantName third = some thirdName ∧
      names = [firstName, secondName, thirdName] := by
  simp only [identifiers?, List.mapM_cons, List.mapM_nil, bind, pure, Option.bind_eq_some_iff,
    Option.some.injEq] at found
  obtain ⟨firstName, firstNamed, _, ⟨secondName, secondNamed, _, ⟨thirdName, thirdNamed, _, rfl, rfl⟩,
    rfl⟩, rfl⟩ := found
  exact ⟨firstName, secondName, thirdName, firstNamed, secondNamed, thirdNamed, rfl⟩

theorem mem_assertions_programOf {declarations : List Declaration} {formulas : List Formula}
    {goal : Formula} (asserted : formula ∈ (programOf declarations formulas goal).assertions) :
    formula ∈ formulas := by
  rw [Program.assertions, programOf, ← Definitions.assertions_eq] at asserted
  have added := Definitions.mem_assertions_assertAll asserted
  rw [Definitions.assertions_declareAll] at added
  exact added.resolve_left List.not_mem_nil

theorem exists_of_chain? {pairs : List (String × String)} {goal : String × String}
    (found : chain? pairs goal = some names) :
    ∃ middle, (goal.1, middle) ∈ pairs ∧ (middle, goal.2) ∈ pairs ∧
      identifiers? [goal.1, middle, goal.2] = some names := by
  simp only [chain?, bind, Option.bind_eq_some_iff] at found
  obtain ⟨⟨start, between⟩, isStep, named⟩ := found
  have listed := List.mem_of_find?_eq_some isStep
  have joins := List.find?_some isStep
  simp only [Bool.and_eq_true, beq_iff_eq, List.any_eq_true] at joins
  obtain ⟨rfl, ⟨middle, last⟩, lastListed, rfl, rfl⟩ := joins
  exact ⟨middle, listed, lastListed, named⟩

theorem exists_of_inclusion? {subsets elements : List (String × String)} {goal : String × String}
    (found : inclusion? subsets elements goal = some names) :
    ∃ part, (part, goal.2) ∈ subsets ∧ (goal.1, part) ∈ elements ∧
      identifiers? [goal.1, part, goal.2] = some names := by
  simp only [inclusion?, bind, Option.bind_eq_some_iff] at found
  obtain ⟨⟨inner, whole⟩, isSubset, named⟩ := found
  have listed := List.mem_of_find?_eq_some isSubset
  have joins := List.find?_some isSubset
  simp only [Bool.and_eq_true, beq_iff_eq, List.any_eq_true] at joins
  obtain ⟨rfl, ⟨element, part⟩, elementListed, rfl, rfl⟩ := joins
  exact ⟨part, listed, elementListed, named⟩

/-- One of the premises states the formula. -/
def IsStated (premises : List String) (formula : Formula) : Prop :=
  ∃ premise ∈ premises, reading? premise = some formula

/-- What the program asserts of names is stated by the premises. -/
def AssertsReadings (premises : List String) (program : Program) : Prop :=
  ∀ formula ∈ program.assertions, formula.IsGroundAtom → IsStated premises formula

theorem assertsReadings_programOf {declarations : List Declaration} {formulas : List Formula}
    {goal : Formula}
    (stated : ∀ formula ∈ formulas, formula.IsGroundAtom → IsStated premises formula) :
    AssertsReadings premises (programOf declarations formulas goal) :=
  fun formula asserted isGround => stated formula (mem_assertions_programOf asserted) isGround

theorem readings_of_chain? {pattern ends : Pattern} {relation : String} {relations : List String}
    {goal : String × String} (phrases : pattern.Phrases [relation])
    (endPhrases : ends.Phrases relations)
    (isGoal : (CaseText.ofArgument premises conclusion).conclusionPair? ends = some goal)
    (found : chain? ((CaseText.ofArgument premises conclusion).premisePairs pattern) goal =
      some names) :
    ∃ first middle last, names = [first, middle, last] ∧
      IsStated premises (.link relation first middle) ∧
      IsStated premises (.link relation middle last) ∧
      ∃ other ∈ relations, reading? conclusion = some (.link other first last) := by
  obtain ⟨between, isFirst, isSecond, named⟩ := exists_of_chain? found
  obtain ⟨first, middle, last, firstNamed, middleNamed, lastNamed, rfl⟩ :=
    exists_of_identifiers? named
  obtain ⟨premise, isPremise, relates⟩ := phrases.relates_premise isFirst
  obtain ⟨other, isOther, otherRelates⟩ := phrases.relates_premise isSecond
  exact ⟨first, middle, last, rfl, ⟨premise, isPremise, relates.reading?_eq firstNamed middleNamed⟩,
    ⟨other, isOther, otherRelates.reading?_eq middleNamed lastNamed⟩,
    (endPhrases.relates_conclusion isGoal).exists_reading? firstNamed lastNamed⟩

theorem program_membership
    (found : membership.structure? (CaseText.ofArgument premises conclusion) = some names) :
    AssertsReadings premises (membership.program names) ∧
      reading? conclusion = some (membership.program names).conclusion := by
  have subset : Pattern.Phrases (isOf ["subset"]) ["SubsetOf"] :=
    Pattern.phrases_nouns (by decide)
  have element : Pattern.Phrases (isOf ["element", "member"]) ["ElementOf"] :=
    Pattern.phrases_nouns (by decide)
  simp only [structure?, bind, Option.bind_eq_some_iff] at found
  obtain ⟨goal, isGoal, included⟩ := found
  obtain ⟨inner, isSubset, isElement, named⟩ := exists_of_inclusion? included
  obtain ⟨member, part, whole, memberNamed, partNamed, wholeNamed, rfl⟩ :=
    exists_of_identifiers? named
  refine ⟨assertsReadings_programOf fun formula listed isGround => ?_,
    (element.relates_conclusion isGoal).reading?_eq memberNamed wholeNamed⟩
  simp only [List.mem_cons, List.not_mem_nil, or_false] at listed
  rcases listed with rfl | rfl | rfl
  · obtain ⟨premise, isPremise, relates⟩ := subset.relates_premise isSubset
    exact ⟨premise, isPremise, relates.reading?_eq partNamed wholeNamed⟩
  · obtain ⟨premise, isPremise, relates⟩ := element.relates_premise isElement
    exact ⟨premise, isPremise, relates.reading?_eq memberNamed partNamed⟩
  · exact isGround.elim

theorem program_comparison
    (found : comparison.structure? (CaseText.ofArgument premises conclusion) = some names) :
    AssertsReadings premises (comparison.program names) ∧
      reading? conclusion = some (comparison.program names).conclusion := by
  have greater : Pattern.Phrases isGreaterThan ["GreaterThan"] :=
    Pattern.phrases_nouns (by decide)
  simp only [structure?, bind, Option.bind_eq_some_iff] at found
  obtain ⟨goal, isGoal, chained⟩ := found
  obtain ⟨first, middle, last, rfl, isFirst, isSecond, relation, isRelation, reads⟩ :=
    readings_of_chain? greater greater isGoal chained
  obtain rfl := List.mem_singleton.mp isRelation
  refine ⟨assertsReadings_programOf fun formula listed isGround => ?_, reads⟩
  simp only [List.mem_cons, List.not_mem_nil, or_false] at listed
  rcases listed with rfl | rfl | rfl
  · exact isFirst
  · exact isSecond
  · exact isGround.elim

/-- The goal may state a parent or an ancestor; the program always concludes an ancestor. -/
theorem program_ancestry
    (found : ancestry.structure? (CaseText.ofArgument premises conclusion) = some names) :
    AssertsReadings premises (ancestry.program names) ∧
      ∃ first last, (ancestry.program names).conclusion = .link "Ancestor" first last ∧
        ∃ relation ∈ ["Ancestor", "Parent"],
          reading? conclusion = some (.link relation first last) := by
  have parent : Pattern.Phrases (isOf ["parent"]) ["Parent"] :=
    Pattern.phrases_nouns (by decide)
  have ends : Pattern.Phrases (isOf ["ancestor", "parent"]) ["Ancestor", "Parent"] :=
    Pattern.phrases_nouns (by decide)
  simp only [structure?, bind, Option.bind_eq_some_iff] at found
  obtain ⟨goal, isGoal, chained⟩ := found
  obtain ⟨first, middle, last, rfl, isFirst, isSecond, reads⟩ :=
    readings_of_chain? parent ends isGoal chained
  refine ⟨assertsReadings_programOf fun formula listed isGround => ?_, first, last, rfl, reads⟩
  simp only [List.mem_cons, List.not_mem_nil, or_false] at listed
  rcases listed with rfl | rfl | rfl | rfl
  · exact isFirst
  · exact isSecond
  · exact isGround.elim
  · exact isGround.elim

end Programs

end CuratedCase

/-! ## Hits of a library -/

section Hits

variable {library : CaseLibrary} {premises : List String} {conclusion : String} {hit : CaseHit}

/-- The program of a hit over captured names asserts of names what premises state, and concludes what
the conclusion states, or the ancestor where the conclusion states a parent. -/
theorem CaseLibrary.program_of_structure (isStructural : library.mode = .structural)
    (resolved : library.resolve? premises conclusion = some hit)
    (captures : hit.curated ∈ [.membership, .comparison, .ancestry]) :
    CuratedCase.AssertsReadings premises hit.program ∧
      (reading? conclusion = some hit.program.conclusion ∨
        hit.curated = .ancestry ∧ ∃ first last,
          reading? conclusion = some (.link "Parent" first last) ∧
          hit.program.conclusion = .link "Ancestor" first last) := by
  obtain ⟨names, found, same⟩ := CaseLibrary.exists_names?_of_resolve? resolved
  rw [CaseLibrary.names?, isStructural] at found
  rw [same]
  simp only [List.mem_cons, List.not_mem_nil, or_false] at captures
  rcases captures with isCase | isCase | isCase <;> rw [isCase] at found ⊢
  · exact (CuratedCase.program_membership found).imp_right .inl
  · exact (CuratedCase.program_comparison found).imp_right .inl
  · refine (CuratedCase.program_ancestry found).imp_right ?_
    rintro ⟨first, last, concludes, relation, isRelation, reads⟩
    rcases List.mem_pair.mp isRelation with rfl | rfl
    · exact .inl (concludes ▸ reads)
    · exact .inr ⟨rfl, first, last, reads, concludes⟩

def chainOfParents : List String := ["Ann is a parent of Bob.", "Bob is a parent of Cid."]

theorem resolve?_chainOfParents
    (lowered : Text.lower conclusion ∈ ["ann is an ancestor of cid.", "ann is a parent of cid."]) :
    (CaseLibrary.standard .structural).resolve? chainOfParents conclusion =
      some ⟨.ancestry, CuratedCase.ancestryProgram "ann" "bob" "cid"⟩ := by
  have premises : chainOfParents.map Text.lower =
      ["ann is a parent of bob.", "bob is a parent of cid."] := by
    decide +kernel
  rw [CaseLibrary.resolve?, CaseText.ofArgument, premises]
  rcases List.mem_pair.mp lowered with isAncestor | isParent
  · rw [isAncestor]
    decide +kernel
  · rw [isParent]
    decide +kernel

theorem reading?_ann_cid {phrasing : Phrasing} (listed : phrasing ∈ phrasings)
    (matched : phrasing.pattern.match? (caseWords (Text.lower conclusion)) = some ["ann", "cid"]) :
    reading? conclusion = some (.link phrasing.relation "ann" "cid") :=
  have annNamed : constantName "ann" = some "ann" := by decide +kernel
  have cidNamed : constantName "cid" = some "cid" := by decide +kernel
  reading?_of_match? listed matched annNamed cidNamed

theorem chainOfParents_is_restated :
    (CaseLibrary.standard .structural).mode = .structural ∧
      ∃ hit, (CaseLibrary.standard .structural).resolve? chainOfParents
          "Ann is an ancestor of Cid." = some hit ∧
        hit.curated ∈ [.membership, .comparison, .ancestry] ∧
        CuratedCase.AssertsReadings chainOfParents hit.program ∧
        reading? "Ann is an ancestor of Cid." = some hit.program.conclusion := by
  have resolved : (CaseLibrary.standard .structural).resolve? chainOfParents
      "Ann is an ancestor of Cid." =
        some ⟨.ancestry, CuratedCase.ancestryProgram "ann" "bob" "cid"⟩ :=
    resolve?_chainOfParents (by decide +kernel)
  have matched : (Phrasing.pattern ⟨"ancestor", "of", "Ancestor"⟩).match?
      (caseWords (Text.lower "Ann is an ancestor of Cid.")) = some ["ann", "cid"] := by
    decide +kernel
  have restated := CaseLibrary.program_of_structure rfl resolved (by decide)
  exact ⟨rfl, _, resolved, by decide, restated.1, reading?_ann_cid (by decide) matched⟩

/-- A parent that the conclusion states is concluded as an ancestor. -/
theorem not_restates_parent :
    ¬ ∀ (premises : List String) (conclusion : String) (hit : CaseHit),
      (CaseLibrary.standard .structural).resolve? premises conclusion = some hit →
      hit.curated ∈ [.membership, .comparison, .ancestry] →
      reading? conclusion = some hit.program.conclusion := by
  intro restates
  have resolved : (CaseLibrary.standard .structural).resolve? chainOfParents
      "Ann is a parent of Cid." =
        some ⟨.ancestry, CuratedCase.ancestryProgram "ann" "bob" "cid"⟩ :=
    resolve?_chainOfParents (by decide +kernel)
  have matched : (Phrasing.pattern ⟨"parent", "of", "Parent"⟩).match?
      (caseWords (Text.lower "Ann is a parent of Cid.")) = some ["ann", "cid"] := by
    decide +kernel
  have reads := reading?_ann_cid (by decide) matched
  have wrong := restates _ _ _ resolved (by decide)
  rw [reads] at wrong
  revert wrong
  decide

end Hits

end Argument

end Ergo
