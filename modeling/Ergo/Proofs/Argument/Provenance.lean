import Ergo.Argument.Compiler
import Ergo.Proofs.Argument.Definitions

/-!
Where the assertions of a compiled argument come from: each is the formula of a triple of some
sentence, that of the conclusion included, or of the translation of a premise.
-/

namespace Ergo

namespace Argument.Compiler

open English

variable {compiler : Compiler}

theorem mem_knownTriples {vocabulary : Vocabulary} {triples : List Triple} {triple : Triple}
    (known : triple ∈ knownTriples vocabulary triples) :
    triple ∈ triples ∧ triple.subject ∈ vocabulary.entities ∧
      triple.object ∈ vocabulary.entities := by
  obtain ⟨listed, both⟩ := List.mem_filter.mp known
  rw [Bool.and_eq_true, NameSet.contains_iff_mem, NameSet.contains_iff_mem] at both
  exact ⟨List.mem_eraseDups.mp listed, both⟩

/-- The formula is that of a triple of the sentence, between things that the vocabulary names. -/
def StatesTriple (vocabulary : Vocabulary) (sentence : Sentence) (formula : Formula) : Prop :=
  ∃ triple ∈ sentence.triples, triple.subject ∈ vocabulary.entities ∧
    triple.object ∈ vocabulary.entities ∧ triple.translate.assertion? = some formula

theorem mem_assertions_definitionsOf {premises : List Sentence} {goal : Sentence}
    {formula : Formula}
    (asserted : formula ∈ (compiler.definitionsOf premises goal).assertions) :
    (∃ sentence ∈ premises ++ [goal],
      StatesTriple (compiler.vocabularyOf (premises ++ [goal])) sentence formula) ∨
      ∃ premise ∈ premises,
        ((compiler.vocabularyOf (premises ++ [goal])).translate premise).assertion? =
          some formula := by
  unfold definitionsOf at asserted
  rcases Definitions.mem_assertions_applyAll asserted with earlier | ⟨_, member, stated⟩
  · rcases Definitions.mem_assertions_applyAll earlier with declared | ⟨_, member, stated⟩
    · rw [Definitions.assertions_declareAll, Definitions.assertions_declare] at declared
      exact absurd declared (by simp [Definitions.empty])
    · obtain ⟨triple, known, rfl⟩ := List.mem_map.mp member
      obtain ⟨found, subjectNamed, objectNamed⟩ := mem_knownTriples known
      obtain ⟨sentence, listed, states⟩ := List.mem_flatMap.mp found
      exact .inl ⟨sentence, listed, triple, states, subjectNamed, objectNamed, stated⟩
  · obtain ⟨premise, listed, rfl⟩ := List.mem_map.mp member
    exact .inr ⟨premise, listed, stated⟩

def premiseSentences (compiler : Compiler) (premises : List String) : List Sentence :=
  (statedTexts premises).map (Sentence.analyze compiler.toolkit)

def goalSentence (compiler : Compiler) (conclusion : String) : Sentence :=
  Sentence.analyze compiler.toolkit (Text.trim conclusion)

def sharedVocabulary (compiler : Compiler) (premises : List String) (conclusion : String) :
    Vocabulary :=
  compiler.vocabularyOf (compiler.premiseSentences premises ++ [compiler.goalSentence conclusion])

theorem compile_eq_compileSentences {premises : List String} {conclusion : String}
    (hasPremises : (statedTexts premises).isEmpty = false)
    (hasConclusion : (Text.trim conclusion).isEmpty = false)
    (unresolved :
      compiler.library.resolve? (statedTexts premises) (Text.trim conclusion) = none) :
    compiler.compile premises conclusion =
      compiler.compileSentences (compiler.premiseSentences premises)
        (compiler.goalSentence conclusion) := by
  unfold compile
  simp only [hasPremises, hasConclusion, unresolved, Bool.false_eq_true, if_false]
  rfl

theorem compileSentences_of_generic {premises : List String} {conclusion : String}
    {compiled : Compiled} (accepted : compiler.compile premises conclusion = .ok compiled)
    (generic : compiled.case? = none) :
    compiler.compileSentences (compiler.premiseSentences premises)
      (compiler.goalSentence conclusion) = .ok compiled := by
  unfold compile at accepted
  simp only at accepted
  split at accepted
  · exact absurd accepted (by simp)
  · split at accepted
    · exact absurd accepted (by simp)
    · split at accepted
      · next hit _ =>
          rw [Except.ok.injEq] at accepted
          simp [← accepted] at generic
      · exact accepted

theorem assertions_of_compileSentences {premises : List Sentence} {goal : Sentence}
    {compiled : Compiled} (accepted : compiler.compileSentences premises goal = .ok compiled) :
    compiled.program.assertions = (compiler.definitionsOf premises goal).assertions := by
  unfold compileSentences at accepted
  cases concluded : compiler.conclusionOf (compiler.definitionsOf premises goal)
      (compiler.vocabularyOf (premises ++ [goal])) goal with
  | error error => simp [concluded, bind, Except.bind] at accepted
  | ok formula =>
      simp only [concluded, bind, Except.bind, pure, Except.pure, Except.ok.injEq] at accepted
      rw [← accepted]
      exact (Definitions.assertions_eq _).symm

theorem exists_compileSentences {premises : List Sentence} {goal : Sentence} {formula : Formula}
    (concluded : ((compiler.vocabularyOf (premises ++ [goal])).conclusion? goal).filter
      (compiler.definitionsOf premises goal).accepts = some formula) :
    ∃ compiled, compiler.compileSentences premises goal = .ok compiled ∧
      compiled.case? = none := by
  unfold compileSentences conclusionOf
  simp only [concluded]
  exact ⟨_, rfl, rfl⟩

/-- Every assertion of an argument that is compiled sentence by sentence is the formula of a triple
that some premise or the conclusion states, or of the translation of a premise. -/
theorem assertion_provenance {premises : List String} {conclusion : String} {compiled : Compiled}
    (accepted : compiler.compile premises conclusion = .ok compiled)
    (generic : compiled.case? = none) {formula : Formula}
    (asserted : formula ∈ compiled.program.assertions) :
    (∃ sentence ∈ compiler.premiseSentences premises ++ [compiler.goalSentence conclusion],
      StatesTriple (compiler.sharedVocabulary premises conclusion) sentence formula) ∨
      ∃ premise ∈ compiler.premiseSentences premises,
        ((compiler.sharedVocabulary premises conclusion).translate premise).assertion? =
          some formula := by
  have bySentences := compileSentences_of_generic accepted generic
  rw [assertions_of_compileSentences bySentences] at asserted
  exact mem_assertions_definitionsOf asserted

/-! ## A conclusion that is assumed -/

def tomSings : Sentence :=
  { text := "Tom sings."
    words := [⟨"tom", .noun, "tom"⟩, ⟨"sings", .verb, "sing"⟩, ⟨".", .punctuation, "."⟩]
    namedEntities := [] }

def annIsLess : Sentence :=
  { text := "Ann is less than Bob."
    words := [⟨"ann", .noun, "ann"⟩, ⟨"is", .verb, "be"⟩, ⟨"less", .adjective, "less"⟩,
      ⟨"than", .preposition, "than"⟩, ⟨"bob", .properNoun, "bob"⟩, ⟨".", .punctuation, "."⟩]
    namedEntities := [⟨.person, "Bob"⟩] }

theorem analyze_tomSings : Sentence.analyze .ruleBased "Tom sings." = tomSings := by
  decide +kernel

theorem analyze_annIsLess : Sentence.analyze .ruleBased "Ann is less than Bob." = annIsLess := by
  decide +kernel

theorem premiseSentences_tomSings :
    (ofSettings .default).premiseSentences ["Tom sings."] = [tomSings] := by
  rw [← analyze_tomSings]
  rfl

/-- That Ann is less than Bob is asserted when it is to be concluded from what Tom does. -/
theorem compile_annIsLess :
    ∃ compiled,
      (ofSettings .default).compile ["Tom sings."] "Ann is less than Bob." = .ok compiled ∧
        compiled.case? = none ∧
        .link "LessThan" "ann" "bob" ∈ compiled.program.assertions := by
  have goal : (ofSettings .default).goalSentence "Ann is less than Bob." = annIsLess := by
    rw [← analyze_annIsLess]
    rfl
  rw [compile_eq_compileSentences (by decide +kernel) (by decide +kernel) (by decide +kernel),
    premiseSentences_tomSings, goal]
  have concluded : (((ofSettings .default).vocabularyOf ([tomSings] ++ [annIsLess])).conclusion?
      annIsLess).filter ((ofSettings .default).definitionsOf [tomSings] annIsLess).accepts =
        some (.link "LessThan" "ann" "bob") := by
    decide +kernel
  obtain ⟨compiled, accepted, generic⟩ := exists_compileSentences concluded
  refine ⟨compiled, accepted, generic, ?_⟩
  rw [assertions_of_compileSentences accepted]
  decide +kernel

theorem lessThan_has_provenance :
    ∃ compiled,
      (ofSettings .default).compile ["Tom sings."] "Ann is less than Bob." = .ok compiled ∧
        compiled.case? = none ∧ .link "LessThan" "ann" "bob" ∈ compiled.program.assertions ∧
        ((∃ sentence ∈ (ofSettings .default).premiseSentences ["Tom sings."] ++
            [(ofSettings .default).goalSentence "Ann is less than Bob."],
          StatesTriple ((ofSettings .default).sharedVocabulary ["Tom sings."]
            "Ann is less than Bob.") sentence (.link "LessThan" "ann" "bob")) ∨
          ∃ premise ∈ (ofSettings .default).premiseSentences ["Tom sings."],
            (((ofSettings .default).sharedVocabulary ["Tom sings."]
              "Ann is less than Bob.").translate premise).assertion? =
                some (.link "LessThan" "ann" "bob")) := by
  obtain ⟨compiled, accepted, generic, asserted⟩ := compile_annIsLess
  exact ⟨compiled, accepted, generic, asserted, assertion_provenance accepted generic asserted⟩

/-- A premise need not say anything of what is asserted. -/
theorem not_assertion_of_premise :
    ¬ ∀ (compiler : Compiler) (premises : List String) (conclusion : String)
        (compiled : Compiled),
      compiler.compile premises conclusion = .ok compiled → compiled.case? = none →
        ∀ formula ∈ compiled.program.assertions,
          ∃ premise ∈ compiler.premiseSentences premises,
            StatesTriple (compiler.sharedVocabulary premises conclusion) premise formula ∨
              ((compiler.sharedVocabulary premises conclusion).translate premise).assertion? =
                some formula := by
  intro claimed
  obtain ⟨compiled, accepted, generic, asserted⟩ := compile_annIsLess
  obtain ⟨premise, listed, states⟩ := claimed _ _ _ _ accepted generic _ asserted
  rw [premiseSentences_tomSings, List.mem_singleton] at listed
  subst listed
  rcases states with ⟨triple, found, _⟩ | translated
  · have noTriples : tomSings.triples = [] := by decide +kernel
    rw [noTriples] at found
    exact absurd found List.not_mem_nil
  · have unclassified : tomSings.category = .unclassified := by decide +kernel
    simp [Vocabulary.translate, unclassified, Translation.nothing] at translated

end Argument.Compiler

end Ergo
