import Ergo.Proofs.Argument.Reapplication
import Ergo.Proofs.English.Rereading

/-!
Arguments that state their premises twice. Curated cases are recognized by the same sentences, and
translations that are applied again add nothing. What repeated premises can add are links between
things that were not yet known when a sentence was first read; where there are none, the compiled
program stays the same.
-/

namespace Ergo.Argument

open Ergo.English

/-! ## Curated cases -/

section Cases

variable {text : CaseText} {pairs others : List (String × String)} {goal : String × String}

theorem isEmpty_append_self {item : Type} (items : List item) :
    (items ++ items).isEmpty = items.isEmpty := by
  cases items <;> rfl

theorem find?_append_self {item : Type} (test : item → Bool) (items : List item) :
    (items ++ items).find? test = items.find? test := by
  rw [List.find?_append, Option.or_self]

/-- The text with its premises stated twice. -/
def CaseText.twice (text : CaseText) : CaseText :=
  { text with premises := text.premises ++ text.premises }

theorem CaseText.premiseMatches_twice (pattern : Pattern) :
    text.twice.premiseMatches pattern =
      text.premiseMatches pattern ++ text.premiseMatches pattern :=
  List.filterMap_append

@[simp] theorem CaseText.premisePairs_twice (pattern : Pattern) :
    text.twice.premisePairs pattern = text.premisePairs pattern ++ text.premisePairs pattern := by
  rw [premisePairs, premiseMatches_twice, List.filterMap_append, premisePairs]

@[simp] theorem CaseText.statesAny_twice (pattern : Pattern) :
    text.twice.statesAny pattern = text.statesAny pattern := by
  rw [statesAny, premiseMatches_twice, isEmpty_append_self, statesAny]

@[simp] theorem CaseText.premiseContains_twice (needle : String) :
    text.twice.premiseContains needle = text.premiseContains needle := by
  simp [premiseContains, twice]

theorem CuratedCase.chain?_append_self : chain? (pairs ++ pairs) goal = chain? pairs goal := by
  simp only [chain?, find?_append_self, List.any_append, Bool.or_self]

theorem CuratedCase.inclusion?_append_self :
    inclusion? (pairs ++ pairs) (others ++ others) goal = inclusion? pairs others goal := by
  simp only [inclusion?, find?_append_self, List.any_append, Bool.or_self]

theorem CuratedCase.structure?_twice (curated : CuratedCase) :
    curated.structure? text.twice = curated.structure? text := by
  cases curated <;>
    simp only [structure?, CaseText.statesAny_twice, CaseText.premisePairs_twice,
      chain?_append_self, inclusion?_append_self] <;> rfl

theorem CuratedCase.hasKeywords_twice (curated : CuratedCase) :
    curated.hasKeywords text.twice = curated.hasKeywords text := by
  cases curated <;> simp only [hasKeywords, CaseText.premiseContains_twice] <;> rfl

theorem CaseLibrary.names?_twice (library : CaseLibrary) (curated : CuratedCase) :
    library.names? text.twice curated = library.names? text curated := by
  rw [names?, names?, CuratedCase.structure?_twice, CuratedCase.hasKeywords_twice]

theorem CaseLibrary.resolve?_append_self (library : CaseLibrary) (premises : List String)
    (conclusion : String) :
    library.resolve? (premises ++ premises) conclusion = library.resolve? premises conclusion := by
  have doubled : CaseText.ofArgument (premises ++ premises) conclusion =
      (CaseText.ofArgument premises conclusion).twice := by
    simp [CaseText.ofArgument, CaseText.twice]
  simp only [resolve?, doubled, names?_twice]

end Cases

/-- What a compiled argument is proved with, and the case that it was recognized as. -/
def Compiled.outcome (compiled : Compiled) : Program × Option CuratedCase :=
  (compiled.program, compiled.case?)

namespace Compiler

variable {compiler : Compiler} {sentences : List Sentence} {goal : Sentence}
  {premises : List String} {conclusion : String}

/-! ## Sentences -/

/-- The vocabulary of sentences on their own. -/
def wordsOf (compiler : Compiler) (sentences : List Sentence) : Vocabulary :=
  Vocabulary.empty.extendAll compiler.toolkit compiler.phrases sentences

theorem knownTriples_append_self {vocabulary : Vocabulary} (triples others : List Triple) :
    knownTriples vocabulary (triples ++ triples ++ others) =
      knownTriples vocabulary (triples ++ others) := by
  have distinct : (triples ++ triples ++ others).eraseDups = (triples ++ others).eraseDups := by
    rw [List.append_assoc, List.eraseDups_append, List.eraseDups_append]
    congr 2
    simp [List.removeAll]
  rw [knownTriples, distinct, knownTriples]

theorem insertAll_append_self (set : NameSet) (names others : List String) :
    set.insertAll (names ++ names ++ others) = set.insertAll (names ++ others) := by
  have inserted : (set.insertAll names).insertAll names = set.insertAll names :=
    NameSet.insertAll_eq_self fun name listed => by simp [listed]
  rw [NameSet.insertAll_append, NameSet.insertAll_append, inserted, ← NameSet.insertAll_append]

theorem vocabularyOf_append_self (linked : (compiler.wordsOf sentences).KnowsLinks sentences) :
    compiler.vocabularyOf (sentences ++ sentences ++ [goal]) =
      compiler.vocabularyOf (sentences ++ [goal]) := by
  have words : Vocabulary.empty.extendAll compiler.toolkit compiler.phrases
        (sentences ++ sentences ++ [goal]) =
      Vocabulary.empty.extendAll compiler.toolkit compiler.phrases (sentences ++ [goal]) := by
    rw [Vocabulary.extendAll_append, Vocabulary.extendAll_append_self_iff.mpr linked,
      ← Vocabulary.extendAll_append]
  simp only [vocabularyOf, words, List.flatMap_append, List.map_append, insertAll_append_self]

theorem definitionsOf_append_self (linked : (compiler.wordsOf sentences).KnowsLinks sentences) :
    compiler.definitionsOf (sentences ++ sentences) goal =
      compiler.definitionsOf sentences goal := by
  have closed : ∀ translation ∈ sentences.map
      (compiler.vocabularyOf (sentences ++ [goal])).translate, translation.IsClosed := by
    rw [List.forall_mem_map]
    exact fun sentence _ => Vocabulary.isClosed_translate _ sentence
  simp only [definitionsOf, vocabularyOf_append_self linked, List.flatMap_append,
    knownTriples_append_self, List.map_append]
  exact Definitions.applyAll_append_self closed

theorem compileSentences_append_self
    (linked : (compiler.wordsOf sentences).KnowsLinks sentences) :
    (compiler.compileSentences (sentences ++ sentences) goal).map Compiled.outcome =
      (compiler.compileSentences sentences goal).map Compiled.outcome := by
  simp only [compileSentences, definitionsOf_append_self linked, vocabularyOf_append_self linked]
  cases compiler.conclusionOf (compiler.definitionsOf sentences goal)
    (compiler.vocabularyOf (sentences ++ [goal])) goal <;> rfl

/-! ## Arguments -/

theorem statedTexts_append (texts others : List String) :
    statedTexts (texts ++ others) = statedTexts texts ++ statedTexts others := by
  simp [statedTexts]

theorem premiseSentences_append (premises others : List String) :
    compiler.premiseSentences (premises ++ others) =
      compiler.premiseSentences premises ++ compiler.premiseSentences others := by
  simp [premiseSentences, statedTexts_append]

/-- Premises that are read sentence by sentence are read twice if they are repeated. -/
theorem compile_append_self_of_unresolved (hasPremises : (statedTexts premises).isEmpty = false)
    (hasConclusion : (Text.trim conclusion).isEmpty = false)
    (unresolved :
      compiler.library.resolve? (statedTexts premises) (Text.trim conclusion) = none) :
    compiler.compile (premises ++ premises) conclusion =
      compiler.compileSentences
        (compiler.premiseSentences premises ++ compiler.premiseSentences premises)
        (compiler.goalSentence conclusion) := by
  rw [compile_eq_compileSentences, premiseSentences_append]
  · rw [statedTexts_append, isEmpty_append_self, hasPremises]
  · exact hasConclusion
  · rw [statedTexts_append, CaseLibrary.resolve?_append_self, unresolved]

/-- Repeating the premises changes neither whether an argument is compiled nor its program, unless it
is no curated case and a link between things named by the premises is missed when they are read
once. -/
theorem outcome_append_self
    (linked : compiler.library.resolve? (statedTexts premises) (Text.trim conclusion) = none →
      (compiler.wordsOf (compiler.premiseSentences premises)).KnowsLinks
        (compiler.premiseSentences premises)) :
    (compiler.compile (premises ++ premises) conclusion).map Compiled.outcome =
      (compiler.compile premises conclusion).map Compiled.outcome := by
  simp only [compile, statedTexts_append, isEmpty_append_self,
    CaseLibrary.resolve?_append_self, List.map_append]
  split
  · rfl
  · split
    · rfl
    · cases resolved : compiler.library.resolve? (statedTexts premises) (Text.trim conclusion) with
      | some hit => rfl
      | none => exact compileSentences_append_self (linked resolved)

theorem outcome_tomLovesMary :
    ((ofSettings .default).wordsOf
        ((ofSettings .default).premiseSentences ["Tom loves Mary."])).KnowsLinks
      ((ofSettings .default).premiseSentences ["Tom loves Mary."]) ∧
    ((ofSettings .default).compile (["Tom loves Mary."] ++ ["Tom loves Mary."])
        "Tom is wise.").map Compiled.outcome =
      ((ofSettings .default).compile ["Tom loves Mary."] "Tom is wise.").map Compiled.outcome := by
  have knowsLinks : ((ofSettings .default).wordsOf
      ((ofSettings .default).premiseSentences ["Tom loves Mary."])).KnowsLinks
        ((ofSettings .default).premiseSentences ["Tom loves Mary."]) := by
    decide +kernel
  exact ⟨knowsLinks, outcome_append_self fun _ => knowsLinks⟩

/-! ## A link that is missed at first -/

def tomLovesWho : Sentence :=
  { text := "Tom loves who."
    words := [⟨"tom", .noun, "tom"⟩, ⟨"loves", .verb, "love"⟩, ⟨"who", .noun, "who"⟩,
      ⟨".", .punctuation, "."⟩]
    namedEntities := [] }

def bobIsWho : Sentence :=
  { text := "Bob is Who."
    words := [⟨"bob", .noun, "bob"⟩, ⟨"is", .verb, "be"⟩, ⟨"who", .properNoun, "who"⟩,
      ⟨".", .punctuation, "."⟩]
    namedEntities := [⟨.person, "Who"⟩] }

def wiseTom : Sentence :=
  { text := "Tom is wise."
    words := [⟨"tom", .noun, "tom"⟩, ⟨"is", .verb, "be"⟩, ⟨"wise", .adjective, "wise"⟩,
      ⟨".", .punctuation, "."⟩]
    namedEntities := [] }

theorem sentences_tomLovesWho :
    (ofSettings .default).premiseSentences ["Tom loves who.", "Bob is Who."] =
        [tomLovesWho, bobIsWho] ∧
      (ofSettings .default).goalSentence "Tom is wise." = wiseTom :=
  ⟨by decide +kernel, by decide +kernel⟩

/-- The program of the two sentences, in which further links are declared as given. -/
def tomLovesWhoProgram (links : List String) : Program :=
  { statements :=
      [.declare (.sort objectSort), .declare (.object "tom"), .declare (.object "bob"),
        .declare (.object "who"), .declare (.property "Love"), .declare (.property "Wise"),
        .declare (.link "TomLovesWho"), .declare (.link "BobIsWho"), .declare (.link "Is")] ++
      links.map (fun link => .declare (.link link)) ++
      [.declare (.link "Equal"), .assert (.link "Equal" "bob" "who")]
    conclusion := .property "Wise" "tom" }

/-- The program of the two sentences, and that of each of them stated twice. -/
theorem programs_tomLovesWho :
    ((ofSettings .default).compileSentences [tomLovesWho, bobIsWho] wiseTom).toOption.map
        Compiled.program = some (tomLovesWhoProgram []) ∧
      ((ofSettings .default).compileSentences
        ([tomLovesWho, bobIsWho] ++ [tomLovesWho, bobIsWho]) wiseTom).toOption.map
          Compiled.program = some (tomLovesWhoProgram ["Loves"]) :=
  ⟨by decide +kernel, by decide +kernel⟩

theorem map_outcome (result : Except CompileError Compiled) :
    (result.map Compiled.outcome).toOption.map Prod.fst =
      result.toOption.map Compiled.program := by
  cases result <;> rfl

/-- The word `who` is passed over at first and names a thing in the second sentence, so that only a
second reading finds that `loves` links two things. -/
theorem outcome_append_self_ne :
    ((ofSettings .default).compile
        (["Tom loves who.", "Bob is Who."] ++ ["Tom loves who.", "Bob is Who."])
        "Tom is wise.").map Compiled.outcome ≠
      ((ofSettings .default).compile ["Tom loves who.", "Bob is Who."]
        "Tom is wise.").map Compiled.outcome := by
  have hasPremises : (statedTexts ["Tom loves who.", "Bob is Who."]).isEmpty = false := by
    decide +kernel
  have hasConclusion : (Text.trim "Tom is wise.").isEmpty = false := by decide +kernel
  have unresolved : (ofSettings .default).library.resolve?
      (statedTexts ["Tom loves who.", "Bob is Who."]) (Text.trim "Tom is wise.") = none := by
    decide +kernel
  rw [compile_append_self_of_unresolved hasPremises hasConclusion unresolved,
    compile_eq_compileSentences hasPremises hasConclusion unresolved,
    sentences_tomLovesWho.1, sentences_tomLovesWho.2]
  intro same
  have programs := congrArg (fun result => result.toOption.map Prod.fst) same
  simp only [map_outcome, programs_tomLovesWho] at programs
  simp [tomLovesWhoProgram] at programs

end Compiler

end Ergo.Argument
