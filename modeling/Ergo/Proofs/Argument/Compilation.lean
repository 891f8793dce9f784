import Ergo.Proofs.Argument.Building
import Ergo.Proofs.Argument.Provenance
import Ergo.Proofs.Argument.Translations

/-!
The programs of compiled arguments. Whether it is the program of a curated case or is made sentence by
sentence, a compiled program declares no name twice, and declares each name before an assertion or the
conclusion uses it.
-/

namespace Ergo

open Ergo.English Ergo.Language

variable {definitions later : Definitions} {formula : Formula}

namespace Definitions

/-! ## Formulas that fit -/

theorem isSome_lookup?_of_acceptsTerm {name : String}
    (accepted : definitions.acceptsTerm (.constant name) = true) :
    (definitions.lookup? name).isSome = true := by
  rw [acceptsTerm] at accepted
  cases found : definitions.lookup? name with
  | none => simp [found] at accepted
  | some declaration => rfl

/-- The symbols of the formula are applied as they were declared, and what it binds was declared. -/
structure Fits (definitions : Definitions) (formula : Formula) : Prop where
  accepted : definitions.accepts formula = true
  isScoped : formula.IsScoped
  binders : ∀ name ∈ formula.binderOccurrences, (definitions.lookup? name).isSome = true

theorem covers_of_accepts (accepted : definitions.accepts formula = true)
    (binders : ∀ name ∈ formula.binderOccurrences, (definitions.lookup? name).isSome = true) :
    definitions.Covers formula := by
  intro name occurs
  induction formula with
  | truth => cases occurs
  | falsity => cases occurs
  | atom predicate arguments =>
      rw [accepts, acceptsAtom] at accepted
      split at accepted
      · cases accepted
      · next domain isApplied =>
          rcases List.mem_cons.mp occurs with rfl | constant
          · obtain ⟨declaration, found, _⟩ := Option.bind_eq_some_iff.mp isApplied
            rw [found]
            rfl
          · rw [Bool.and_eq_true, List.all_eq_true] at accepted
            exact isSome_lookup?_of_acceptsTerm
              (accepted.2 _ (Formula.mem_constantNames.mp constant))
  | equal left right =>
      rw [accepts, Bool.and_eq_true] at accepted
      have listed := Formula.mem_constantNames.mp occurs
      simp only [List.mem_cons, List.not_mem_nil, or_false] at listed
      rcases listed with rfl | rfl
      · exact isSome_lookup?_of_acceptsTerm accepted.1
      · exact isSome_lookup?_of_acceptsTerm accepted.2
  | not operand induction => exact induction accepted binders occurs
  | and parts induction =>
      rw [accepts, acceptsParts_eq_all, List.all_eq_true] at accepted
      simp only [Formula.symbolOccurrences, Formula.partsSymbolOccurrences_eq_flatMap,
        List.mem_flatMap] at occurs
      obtain ⟨part, member, inside⟩ := occurs
      refine induction part member (accepted part member) (fun other bound => ?_) inside
      exact binders other (by simpa [Formula.binderOccurrences] using ⟨part, member, bound⟩)
  | or parts induction =>
      rw [accepts, acceptsParts_eq_all, List.all_eq_true] at accepted
      simp only [Formula.symbolOccurrences, Formula.partsSymbolOccurrences_eq_flatMap,
        List.mem_flatMap] at occurs
      obtain ⟨part, member, inside⟩ := occurs
      refine induction part member (accepted part member) (fun other bound => ?_) inside
      exact binders other (by simpa [Formula.binderOccurrences] using ⟨part, member, bound⟩)
  | implies premise consequent premiseInduction consequentInduction =>
      rw [accepts, Bool.and_eq_true] at accepted
      obtain ⟨premiseBinders, consequentBinders⟩ := List.forall_mem_append.mp binders
      rcases List.mem_append.mp occurs with inPremise | inConsequent
      · exact premiseInduction accepted.1 premiseBinders inPremise
      · exact consequentInduction accepted.2 consequentBinders inConsequent
  | forAll bound body induction =>
      obtain ⟨ownBinders, innerBinders⟩ := List.forall_mem_append.mp binders
      rcases List.mem_append.mp occurs with inBinders | inBody
      · exact ownBinders name inBinders
      · exact induction accepted innerBinders inBody
  | forSome bound body induction =>
      obtain ⟨ownBinders, innerBinders⟩ := List.forall_mem_append.mp binders
      rcases List.mem_append.mp occurs with inBinders | inBody
      · exact ownBinders name inBinders
      · exact induction accepted innerBinders inBody

theorem Fits.covers (fits : definitions.Fits formula) : definitions.Covers formula :=
  covers_of_accepts fits.accepted fits.binders

/-! ## Definitions over objects -/

/-- Definitions that plain declarations and fitting formulas were added to. -/
abbrev IsPlain (definitions : Definitions) : Prop :=
  Built (fun _ declaration => declaration.IsPlain) Fits definitions

theorem IsPlain.apply (isPlain : definitions.IsPlain) {translation : Translation}
    (translationPlain : translation.IsPlain) : (definitions.apply translation).1.IsPlain := by
  refine isPlain.applied (fun declaration listed _ => translationPlain.declarations declaration listed)
    fun formula stated accepted => ⟨accepted, translationPlain.isScoped formula stated, ?_⟩
  intro name bound
  obtain ⟨declaration, listed, rfl⟩ :=
    List.mem_map.mp (translationPlain.binders formula stated name bound)
  exact isSome_lookup?_declareAll listed

theorem IsPlain.applyAll (isPlain : definitions.IsPlain) {translations : List Translation}
    (translationsPlain : ∀ translation ∈ translations, translation.IsPlain) :
    (definitions.applyAll translations).IsPlain := by
  unfold Definitions.applyAll
  induction translations generalizing definitions with
  | nil => exact isPlain
  | cons translation translations induction =>
      exact induction (isPlain.apply (translationsPlain translation (by simp)))
        fun other member => translationsPlain other (List.mem_cons_of_mem _ member)

end Definitions

/-! ## Ordered programs -/

/-- The program was built from declarations that can be written and formulas over what they declare. -/
structure Program.IsOrdered (program : Program) : Prop where
  built : Definitions.Built (fun _ declaration => declaration.IsWritten)
    (fun definitions formula => definitions.Covers formula ∧ formula.IsScoped)
    (.ofStatements program.statements)
  covers : Definitions.Covers (.ofStatements program.statements) program.conclusion
  isScoped : program.conclusion.IsScoped

namespace Program.IsOrdered

variable {program : Program}

theorem of_built
    (built : definitions.Built (fun _ declaration => declaration.IsWritten)
      fun definitions formula => definitions.Covers formula ∧ formula.IsScoped)
    (covers : definitions.Covers formula) (isScoped : formula.IsScoped) :
    IsOrdered { statements := definitions.statements, conclusion := formula } where
  built := by rwa [Definitions.ofStatements_statements]
  covers := by rwa [Definitions.ofStatements_statements]
  isScoped := isScoped

theorem nodup_names (ordered : program.IsOrdered) :
    (program.declarations.map Declaration.name).Nodup :=
  ordered.built.nodup_names

theorem covers_and_isScoped (ordered : program.IsOrdered) {before after : List Statement}
    {formula : Formula}
    (split : program.statements ++ [.assert program.conclusion] = before ++ .assert formula :: after) :
    Definitions.Covers (.ofStatements before) formula ∧ formula.IsScoped := by
  have whole : Definitions.Built (fun _ declaration => declaration.IsWritten)
      (fun definitions formula => definitions.Covers formula ∧ formula.IsScoped)
      ((Definitions.ofStatements program.statements).append (.assert program.conclusion)) :=
    .assert ordered.built ⟨ordered.covers, ordered.isScoped⟩
  exact whole.mayAssert_of_split split

/-- A symbol is declared by a statement in front of every assertion that uses it. -/
theorem declares (ordered : program.IsOrdered) {before after : List Statement} {formula : Formula}
    (split : program.statements ++ [.assert program.conclusion] = before ++ .assert formula :: after)
    {name : String} (used : name ∈ formula.symbols) : Declares before name :=
  Definitions.declares_of_isSome_lookup?
    ((ordered.covers_and_isScoped split).1 name (Formula.mem_symbols.mp used))

theorem forwardReferences_eq_nil (ordered : program.IsOrdered) : program.forwardReferences = [] := by
  have known : undeclaredUses [] (program.statements ++ [.assert program.conclusion]) = [] := by
    rw [undeclaredUses_eq_nil_iff]
    exact fun _ _ _ split _ used => .inr (ordered.declares split used)
  rw [forwardReferences, known]
  rfl

end Program.IsOrdered

namespace Argument

namespace Compiler

variable {compiler : Compiler}

theorem isPlain_definitionsOf (compiler : Compiler) (premises : List Sentence) (goal : Sentence) :
    (compiler.definitionsOf premises goal).IsPlain := by
  unfold definitionsOf
  have objectPlain : (Declaration.sort objectSort).IsPlain :=
    ⟨⟨by decide, by simp [Declaration.namedSorts, Declaration.sort?, Declaration.domain?],
      by simp [Declaration.domain?]⟩,
      by simp [Declaration.namedSorts, Declaration.sort?, Declaration.domain?]⟩
  refine Definitions.IsPlain.applyAll (Definitions.IsPlain.applyAll ?_ ?_) ?_
  · refine ((Definitions.Built.empty).declared objectPlain).declaredAll fun declaration listed _ _ => ?_
    exact isPlain_vocabularyDeclarations (fun _ => isSmallName_of_mem_vocabularyOf) listed
  · intro translation member
    obtain ⟨triple, -, rfl⟩ := List.mem_map.mp member
    exact triple.isPlain_translate
  · intro translation member
    obtain ⟨premise, -, rfl⟩ := List.mem_map.mp member
    exact Vocabulary.isPlain_translate _ premise

/-- A conclusion fits the definitions of the premises, or is taken to be true. -/
theorem fits_of_conclusionOf {vocabulary : Vocabulary} {goal : Sentence}
    (concluded : compiler.conclusionOf definitions vocabulary goal = .ok formula) :
    definitions.Fits formula := by
  unfold conclusionOf at concluded
  split at concluded
  · next stated isStated =>
      cases concluded
      obtain ⟨isConclusion, accepted⟩ := Option.filter_eq_some_iff.mp isStated
      obtain ⟨isScoped, noBinders⟩ := Vocabulary.isScoped_of_conclusion? isConclusion
      exact ⟨accepted, isScoped, by simp [noBinders]⟩
  · cases concluded
    exact ⟨rfl, .truth, by simp [Formula.binderOccurrences]⟩
  · cases concluded

theorem isOrdered_of_isPlain (isPlain : definitions.IsPlain) (fits : definitions.Fits formula) :
    Program.IsOrdered { statements := definitions.statements, conclusion := formula } :=
  .of_built (isPlain.imp (fun _ _ plain => plain.written) fun _ _ fits => ⟨fits.covers, fits.isScoped⟩)
    fits.covers fits.isScoped

theorem compileSentences_eq_ok {premises : List Sentence} {goal : Sentence} {compiled : Compiled}
    (accepted : compiler.compileSentences premises goal = .ok compiled) :
    compiled.case? = none ∧
      compiled.program.statements = (compiler.definitionsOf premises goal).statements ∧
      (compiler.definitionsOf premises goal).Fits compiled.program.conclusion := by
  obtain ⟨formula, concluded, same⟩ := bind_eq_ok_iff.mp accepted
  cases same
  exact ⟨rfl, rfl, fits_of_conclusionOf concluded⟩

end Compiler

/-! ## Curated cases -/

namespace CuratedCase

section Symbols

variable {first second name : String}

@[simp] theorem symbolOccurrences_property :
    (Formula.property first name).symbolOccurrences = [first, name] := rfl

@[simp] theorem symbolOccurrences_link :
    (Formula.link first name second).symbolOccurrences = [first, name, second] := rfl

@[simp] theorem symbolOccurrences_inclusion :
    (Formula.inclusion first second).symbolOccurrences = ["x", first, second] := rfl

@[simp] theorem symbolOccurrences_subrelation :
    (Formula.subrelation first second).symbolOccurrences = ["x", "y", first, second] := rfl

@[simp] theorem symbolOccurrences_transitivity :
    (Formula.transitivity first).symbolOccurrences = ["x", "y", "z", first, first, first] := rfl

end Symbols

theorem isOrdered_programOf {declarations : List Declaration} {formulas : List Formula}
    {conclusion : Formula} (written : ∀ declaration ∈ declarations, declaration.IsWritten)
    (stated : ∀ formula ∈ conclusion :: formulas, formula.IsScoped ∧
      ∀ name ∈ formula.symbolOccurrences, name ∈ declarations.map Declaration.name) :
    (programOf declarations formulas conclusion).IsOrdered := by
  have covers : ∀ formula ∈ conclusion :: formulas, ∀ later : Definitions,
      later.Extends (Definitions.empty.declareAll declarations) → later.Covers formula := by
    intro formula listed later extension name occurs
    obtain ⟨declaration, declared, rfl⟩ := List.mem_map.mp ((stated formula listed).2 name occurs)
    exact extension.isSome_lookup? (Definitions.isSome_lookup?_declareAll declared)
  refine .of_built ?_ ?_ (stated conclusion (by simp)).1
  · refine Definitions.Built.assertedAll ?_ fun formula listed later extension => ?_
    · exact Definitions.Built.declaredAll .empty fun declaration listed _ _ =>
        written declaration listed
    · exact ⟨covers formula (by simp [listed]) later extension, (stated formula (by simp [listed])).1⟩
  · exact covers conclusion (by simp) _ (Definitions.extends_assertAll _)

theorem isWritten_iff {declaration : Declaration} :
    declaration.IsWritten ↔ IsIdentifier declaration.name ∧
      (∀ sortName ∈ declaration.namedSorts, IsIdentifier sortName) ∧
      declaration.domain? ≠ some [] :=
  ⟨fun written => ⟨written.name, written.sorts, written.domain⟩,
    fun ⟨name, sorts, domain⟩ => ⟨name, sorts, domain⟩⟩

theorem isOrdered_mortalityProgram : mortalityProgram.IsOrdered := by
  apply isOrdered_programOf
  · simp +decide [isWritten_iff]
  · simp +decide [Formula.isScoped_inclusion, Formula.isScoped_property]

theorem isOrdered_flightProgram : flightProgram.IsOrdered := by
  apply isOrdered_programOf
  · simp +decide [isWritten_iff]
  · have notFlying : (Formula.not (.property "Fly" "bird")).IsScoped := .not Formula.isScoped_property
    simp +decide [Formula.isScoped_inclusion, Formula.isScoped_property, notFlying]

section Captured

variable {first second third : String}

/-- The formula of a membership that binds the names of the case. -/
abbrev memberRule (element part whole : String) : Formula :=
  .forAll [element] (.forAll [part, whole]
    (.implies
      (.and [.atom "ElementOf" [.var element, .var part], .atom "SubsetOf" [.var part, .var whole]])
      (.atom "ElementOf" [.var element, .var whole])))

theorem isScoped_memberRule : (memberRule first second third).IsScoped := by
  refine .forAll (by simp) (by simp) (.forAll (by simp) (by simp) (.implies (.and ?_) ?_))
  · intro part member
    simp only [List.mem_cons, List.not_mem_nil, or_false] at member
    rcases member with rfl | rfl
    · exact .atom trivial (by simp [Term.WellScoped])
    · exact .atom trivial (by simp [Term.WellScoped])
  · exact .atom trivial (by simp [Term.WellScoped])

theorem isOrdered_membershipProgram (firstIdentifier : IsIdentifier first)
    (secondIdentifier : IsIdentifier second) (thirdIdentifier : IsIdentifier third) :
    (membershipProgram first second third).IsOrdered := by
  apply isOrdered_programOf
  · simp +decide [isWritten_iff, Declaration.name, Declaration.namedSorts, Declaration.sort?,
      Declaration.domain?, firstIdentifier, secondIdentifier, thirdIdentifier]
  · simp [Formula.isScoped_link, isScoped_memberRule, Formula.symbolOccurrences,
      Formula.constantNames, Declaration.name]

theorem isOrdered_comparisonProgram (firstIdentifier : IsIdentifier first)
    (secondIdentifier : IsIdentifier second) (thirdIdentifier : IsIdentifier third) :
    (comparisonProgram first second third).IsOrdered := by
  apply isOrdered_programOf
  · simp +decide [isWritten_iff, Declaration.name, Declaration.namedSorts, Declaration.sort?,
      Declaration.domain?, Declaration.link, Declaration.object, Declaration.objectVariable,
      firstIdentifier, secondIdentifier, thirdIdentifier]
  · simp [Formula.isScoped_link, Formula.isScoped_transitivity, Declaration.name, Declaration.link,
      Declaration.object, Declaration.objectVariable]

theorem isOrdered_ancestryProgram (firstIdentifier : IsIdentifier first)
    (secondIdentifier : IsIdentifier second) (thirdIdentifier : IsIdentifier third) :
    (ancestryProgram first second third).IsOrdered := by
  apply isOrdered_programOf
  · simp +decide [isWritten_iff, Declaration.name, Declaration.namedSorts, Declaration.sort?,
      Declaration.domain?, firstIdentifier, secondIdentifier, thirdIdentifier]
  · simp [Formula.isScoped_link, Formula.isScoped_transitivity, Formula.isScoped_subrelation,
      Declaration.name]

end Captured

theorem isOrdered_program {curated : CuratedCase} {names : CaseNames}
    (identifiers : ∀ name ∈ names, IsIdentifier name) : (curated.program names).IsOrdered := by
  unfold program
  split
  · exact isOrdered_mortalityProgram
  · exact isOrdered_flightProgram
  · exact isOrdered_membershipProgram (identifiers _ (by simp)) (identifiers _ (by simp))
      (identifiers _ (by simp))
  · exact isOrdered_membershipProgram (by decide) (by decide) (by decide)
  · exact isOrdered_comparisonProgram (identifiers _ (by simp)) (identifiers _ (by simp))
      (identifiers _ (by simp))
  · exact isOrdered_comparisonProgram (by decide) (by decide) (by decide)
  · exact isOrdered_ancestryProgram (identifiers _ (by simp)) (identifiers _ (by simp))
      (identifiers _ (by simp))
  · exact isOrdered_ancestryProgram (by decide) (by decide) (by decide)

/-- The names that a case takes from an argument are those of things. -/
theorem isSmallName_of_identifiers? {words : List String} {names : CaseNames}
    (found : identifiers? words = some names) : ∀ name ∈ names, IsSmallName name := by
  unfold identifiers? at found
  induction words generalizing names with
  | nil =>
      cases found
      simp
  | cons word words induction =>
      simp only [List.mapM_cons, bind, pure, Option.bind_eq_some_iff, Option.some.injEq] at found
      obtain ⟨first, named, later, laterFound, rfl⟩ := found
      intro name member
      rcases List.mem_cons.mp member with rfl | inLater
      · exact isSmallName_of_constantName named
      · exact induction laterFound name inLater

theorem isSmallName_of_structure? {text : CaseText} {curated : CuratedCase} {names : CaseNames}
    (found : curated.structure? text = some names) : ∀ name ∈ names, IsSmallName name := by
  cases curated with
  | mortality =>
      rw [structure?] at found
      split at found <;> cases found
      simp
  | flight =>
      rw [structure?] at found
      split at found <;> cases found
      simp
  | membership =>
      simp only [structure?, bind, Option.bind_eq_some_iff, inclusion?] at found
      obtain ⟨goal, -, subset, -, named⟩ := found
      exact isSmallName_of_identifiers? named
  | comparison =>
      simp only [structure?, bind, Option.bind_eq_some_iff, chain?] at found
      obtain ⟨goal, -, step, -, named⟩ := found
      exact isSmallName_of_identifiers? named
  | ancestry =>
      simp only [structure?, bind, Option.bind_eq_some_iff, chain?] at found
      obtain ⟨goal, -, step, -, named⟩ := found
      exact isSmallName_of_identifiers? named

end CuratedCase

theorem CaseLibrary.resolve?_eq_some {library : CaseLibrary} {premises : List String}
    {conclusion : String} {hit : CaseHit} (resolved : library.resolve? premises conclusion = some hit) :
    ∃ names : CaseNames, (∀ name ∈ names, IsSmallName name) ∧
      hit.program = hit.curated.program names := by
  obtain ⟨names, found, same⟩ := CaseLibrary.exists_names?_of_resolve? resolved
  refine ⟨names, ?_, same⟩
  unfold CaseLibrary.names? at found
  split at found
  · exact CuratedCase.isSmallName_of_structure? found
  · split at found <;> cases found
    simp
  · cases found

/-! ## Compiled programs -/

namespace Compiler

variable {compiler : Compiler} {premises : List String} {conclusion : String} {compiled : Compiled}

/-- A compiled program is that of a curated case, or is over the definitions of the sentences. -/
theorem compile_cases (accepted : compiler.compile premises conclusion = .ok compiled) :
    (∃ curated, ∃ names : CaseNames, compiled.case? = some curated ∧
      (∀ name ∈ names, IsSmallName name) ∧ compiled.program = curated.program names) ∨
    (compiled.case? = none ∧ ∃ definitions : Definitions, definitions.IsPlain ∧
      compiled.program.statements = definitions.statements ∧
        definitions.Fits compiled.program.conclusion) := by
  cases isCurated : compiled.case? with
  | none =>
      obtain ⟨-, statements, fits⟩ :=
        compileSentences_eq_ok (compileSentences_of_generic accepted isCurated)
      exact .inr ⟨rfl, _, isPlain_definitionsOf _ _ _, statements, fits⟩
  | some curated =>
      unfold compile at accepted
      simp only at accepted
      split at accepted
      · cases accepted
      · split at accepted
        · cases accepted
        · split at accepted
          · next hit resolved =>
              cases accepted
              cases isCurated
              obtain ⟨names, small, same⟩ := CaseLibrary.resolve?_eq_some resolved
              exact .inl ⟨_, names, rfl, small, same⟩
          · obtain ⟨noCase, -⟩ := compileSentences_eq_ok accepted
            rw [noCase] at isCurated
            cases isCurated

theorem isOrdered_of_compile (accepted : compiler.compile premises conclusion = .ok compiled) :
    compiled.program.IsOrdered := by
  rcases compile_cases accepted with
    ⟨curated, names, -, small, same⟩ | ⟨-, definitions, plain, same, fits⟩
  · rw [same]
    exact CuratedCase.isOrdered_program fun name member => (small name member).identifier
  · have ordered := isOrdered_of_isPlain plain fits
    rw [← same] at ordered
    exact ordered

/-- A compiled program refers to nothing ahead of its declaration and declares no name twice. -/
theorem isDeclarationOrdered (accepted : compiler.compile premises conclusion = .ok compiled) :
    compiled.program.forwardReferences = [] ∧
      (∀ before formula after, compiled.program.statements ++ [.assert compiled.program.conclusion] =
          before ++ .assert formula :: after →
        ∀ name ∈ formula.symbols, Program.Declares before name) ∧
      (compiled.program.declarations.map Declaration.name).Nodup := by
  have ordered := isOrdered_of_compile accepted
  exact ⟨ordered.forwardReferences_eq_nil, fun _ _ _ split _ used => ordered.declares split used,
    ordered.nodup_names⟩

/-- What is compiled from `All cats are mortal.` and `Tom is wise.`, with the latter as conclusion. -/
def tomIsWise : Compiled :=
  { program :=
      { statements :=
          [.declare (.sort objectSort), .declare (.object "cat"), .declare (.object "tom"),
            .declare (.property "Mortal"), .declare (.property "Wise"), .declare (.property "Cat"),
            .declare (.objectVariable "x"), .assert (.inclusion "Cat" "Mortal"),
            .assert (.property "Wise" "tom")]
        conclusion := .property "Wise" "tom" }
    triples := []
    case? := none }

theorem compile_tomIsWise :
    (ofSettings .default).compile ["All cats are mortal.", "Tom is wise."] "Tom is wise." =
      .ok tomIsWise := by
  decide +kernel

theorem tomIsWise_isDeclarationOrdered :
    (ofSettings .default).compile ["All cats are mortal.", "Tom is wise."] "Tom is wise." =
        .ok tomIsWise ∧
      tomIsWise.program.forwardReferences = [] ∧
      (∀ before formula after, tomIsWise.program.statements ++ [.assert tomIsWise.program.conclusion] =
          before ++ .assert formula :: after →
        ∀ name ∈ formula.symbols, Program.Declares before name) ∧
      (tomIsWise.program.declarations.map Declaration.name).Nodup :=
  ⟨compile_tomIsWise, isDeclarationOrdered compile_tomIsWise⟩

end Compiler

end Argument

end Ergo
