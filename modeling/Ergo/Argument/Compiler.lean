import Ergo.Argument.CuratedCase
import Ergo.Argument.Translation

/-!
Compilation of arguments. An argument that is recognized as a curated case takes its program;
otherwise the vocabulary of all its sentences is declared, the triples they state are asserted,
and each premise and then the conclusion is translated.
-/

namespace Ergo.Argument

open Ergo.English

inductive CompileError
  | noPremises
  | noConclusion
  | unrecognizedConclusion (text : String)
  deriving DecidableEq, Repr

def CompileError.message : CompileError → String
  | .noPremises => "No premises provided"
  | .noConclusion => "No conclusion provided"
  | .unrecognizedConclusion text => s!"Unrecognized conclusion: {text}"

structure Compiled where
  program : Program
  /-- Triples of all sentences, in the order of the sentences. -/
  triples : List Triple
  case? : Option CuratedCase
  deriving DecidableEq, Repr

structure Compiler where
  conclusionPolicy : ConclusionPolicy
  phrases : List String
  toolkit : Toolkit
  library : CaseLibrary

namespace Compiler

/-- The compiler with the toolkit of rules and all curated cases. -/
def ofSettings (settings : CompilerSettings) : Compiler :=
  { conclusionPolicy := settings.conclusionPolicy
    phrases := settings.phrases
    toolkit := .ruleBased
    library := .standard settings.caseMode }

def vocabularyDeclarations (vocabulary : Vocabulary) : List Declaration :=
  vocabulary.entities.names.map .object ++
    (vocabulary.predicates.names.filterMap predicateName).map .property ++
    (vocabulary.relations.names.filterMap relationName).map .link

/-- The vocabulary of sentences, with the tags of the triples they state. -/
def vocabularyOf (compiler : Compiler) (sentences : List Sentence) : Vocabulary :=
  let vocabulary := Vocabulary.empty.extendAll compiler.toolkit compiler.phrases sentences
  let tags := (sentences.flatMap Sentence.triples).map fun triple => triple.kind.tag
  { vocabulary with relations := vocabulary.relations.insertAll tags }

def knownTriples (vocabulary : Vocabulary) (triples : List Triple) : List Triple :=
  triples.eraseDups.filter fun triple =>
    vocabulary.entities.contains triple.subject && vocabulary.entities.contains triple.object

/-- The statements for the premises of an argument whose conclusion is `goal`. -/
def definitionsOf (compiler : Compiler) (premises : List Sentence) (goal : Sentence) :
    Definitions :=
  let sentences := premises ++ [goal]
  let vocabulary := compiler.vocabularyOf sentences
  let declared := (Definitions.empty.declare (.sort objectSort)).declareAll
    (vocabularyDeclarations vocabulary)
  let triples := knownTriples vocabulary (sentences.flatMap Sentence.triples)
  (declared.applyAll (triples.map Triple.translate)).applyAll
    (premises.map vocabulary.translate)

/-- The formula of a conclusion that fits the definitions. -/
def conclusionOf (compiler : Compiler) (definitions : Definitions) (vocabulary : Vocabulary)
    (goal : Sentence) : Except CompileError Formula :=
  match (vocabulary.conclusion? goal).filter definitions.accepts, compiler.conclusionPolicy with
  | some formula, _ => .ok formula
  | none, .assumeTrue => .ok .truth
  | none, .reject => .error (.unrecognizedConclusion goal.text)

def compileSentences (compiler : Compiler) (premises : List Sentence) (goal : Sentence) :
    Except CompileError Compiled := do
  let sentences := premises ++ [goal]
  let definitions := compiler.definitionsOf premises goal
  let conclusion ← compiler.conclusionOf definitions (compiler.vocabularyOf sentences) goal
  return {
    program := { statements := definitions.statements, conclusion := conclusion }
    triples := sentences.flatMap Sentence.triples
    case? := none }

/-- The texts that are not blank, without the white space around them. -/
def statedTexts (texts : List String) : List String :=
  (texts.map Text.trim).filter fun text => !text.isEmpty

def compile (compiler : Compiler) (premises : List String) (conclusion : String) :
    Except CompileError Compiled :=
  let premises := statedTexts premises
  let conclusion := Text.trim conclusion
  if premises.isEmpty then .error .noPremises
  else if conclusion.isEmpty then .error .noConclusion
  else
    match compiler.library.resolve? premises conclusion with
    | some hit => .ok { program := hit.program, triples := [], case? := some hit.curated }
    | none =>
        compiler.compileSentences (premises.map (Sentence.analyze compiler.toolkit))
          (Sentence.analyze compiler.toolkit conclusion)

end Compiler

end Ergo.Argument
