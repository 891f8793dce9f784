import Ergo.Proofs.Argument.Acceptance
import Ergo.Proofs.Refutation.Universal

/-!
Curated cases that rest on transitivity. Their programs state two links of a chain and conclude that
its ends are linked. Whatever the three names are, the conclusion follows, as the rules apply to all
elements of the sort of the names, and so it is proven (`prove_comparisonProgram`,
`prove_ancestryProgram`).
-/

namespace Ergo

universe u

open Ergo.English

/-! ## Rules between elements -/

namespace Structure

variable {model : Structure.{u}} {sortOf : String → String} {reading : model.Reading}
  {relation other first second : String} {start middle last : model.Element}

theorem relation_of_subrelation (rule : Satisfies sortOf reading (.subrelation relation other))
    (startSort : start.1 = sortOf "x") (lastSort : last.1 = sortOf "y")
    (linked : model.relation relation [start, last]) : model.relation other [start, last] :=
  rule [start, last] (.cons startSort (.cons lastSort .nil)) linked

theorem relation_of_transitivity (rule : Satisfies sortOf reading (.transitivity relation))
    (startSort : start.1 = sortOf "x") (middleSort : middle.1 = sortOf "y")
    (lastSort : last.1 = sortOf "z") (fromStart : model.relation relation [start, middle])
    (toLast : model.relation relation [middle, last]) : model.relation relation [start, last] :=
  rule [start, middle, last] (.cons startSort (.cons middleSort (.cons lastSort .nil)))
    ⟨fromStart, toLast, trivial⟩

end Structure

theorem Theory.Reads.sort_eq {theory : Theory} {model : Structure.{u}} {reading : model.Reading}
    {name binder sortName : String} (reads : theory.Reads reading)
    (nameSorted : theory.nameSort? name = some sortName)
    (binderSorted : theory.nameSort? binder = some sortName) :
    (reading name).1 = theory.variableSort binder := by
  rw [reads name sortName nameSorted, variableSort_of_nameSort? binderSorted]

/-! ## Universal rules -/

namespace Formula

variable {relation other first second : String} {width : Nat}

theorem isUniversal_link : (link relation first second).negationNormal.IsUniversal width :=
  .ground (.literal (.atom _ _))

theorem isUniversal_not_link :
    (Formula.not (link relation first second)).negationNormal.IsUniversal width :=
  .ground (.literal (.notAtom _ _))

theorem isUniversal_subrelation (wide : 2 ≤ width) :
    (subrelation relation other).negationNormal.IsUniversal width := by
  refine .forAll wide (.or ?_)
  simp only [List.forall_mem_cons]
  exact ⟨.literal (.notAtom _ _), .literal (.atom _ _), List.forall_mem_nil _⟩

theorem isUniversal_transitivity (wide : 3 ≤ width) :
    (transitivity relation).negationNormal.IsUniversal width := by
  refine .forAll wide (.or ?_)
  simp only [List.forall_mem_cons]
  refine ⟨.or ?_, .literal (.atom _ _), List.forall_mem_nil _⟩
  simp only [normalParts_eq_map, List.forall_mem_map, List.forall_mem_cons]
  exact ⟨.literal (.notAtom _ _), .literal (.notAtom _ _), List.forall_mem_nil _⟩

end Formula

/-! ## Programs of declarations and formulas -/

namespace Definitions

variable {definitions : Definitions}

theorem exists_statements_declareAll (definitions : Definitions) (declarations : List Declaration) :
    ∃ declared : List Declaration, declared.length ≤ declarations.length ∧
      (definitions.declareAll declarations).statements =
        definitions.statements ++ declared.map .declare := by
  induction declarations generalizing definitions with
  | nil => exact ⟨[], Nat.le_refl _, (List.append_nil _).symm⟩
  | cons declaration declarations induction =>
      have step : definitions.declareAll (declaration :: declarations) =
          (definitions.declare declaration).declareAll declarations := rfl
      obtain ⟨declared, few, same⟩ := induction (definitions.declare declaration)
      rw [step, same]
      rcases definitions.declare_cases declaration with ⟨-, known⟩ | ⟨-, new⟩
      · rw [known]
        exact ⟨declared, Nat.le_succ_of_le few, rfl⟩
      · rw [new, append, List.append_assoc]
        exact ⟨declaration :: declared, Nat.succ_le_succ few, rfl⟩

theorem exists_statements_assertAll (definitions : Definitions) (formulas : List Formula) :
    ∃ asserted : List Formula, asserted ⊆ formulas ∧
      (definitions.assertAll formulas).statements =
        definitions.statements ++ asserted.map .assert := by
  induction formulas generalizing definitions with
  | nil => exact ⟨[], List.Subset.refl [], (List.append_nil _).symm⟩
  | cons formula formulas induction =>
      have step : definitions.assertAll (formula :: formulas) =
          (definitions.assert formula).assertAll formulas := rfl
      obtain ⟨asserted, listed, same⟩ := induction (definitions.assert formula)
      rw [step, same]
      rcases definitions.assert_cases formula with ⟨-, known⟩ | new
      · rw [known]
        exact ⟨asserted, List.subset_cons_of_subset formula listed, rfl⟩
      · rw [new, append, List.append_assoc]
        exact ⟨formula :: asserted, List.cons_subset_cons formula listed, rfl⟩

theorem mem_statements_assert (definitions : Definitions) (formula : Formula) :
    .assert formula ∈ (definitions.assert formula).statements := by
  rcases definitions.assert_cases formula with ⟨known, same⟩ | new
  · rwa [same]
  · rw [new]
    exact List.mem_append_right _ (List.mem_singleton_self _)

theorem mem_statements_assertAll {formulas : List Formula} {formula : Formula}
    (listed : formula ∈ formulas) : .assert formula ∈ (definitions.assertAll formulas).statements := by
  induction formulas generalizing definitions with
  | nil => cases listed
  | cons first formulas induction =>
      rcases List.mem_cons.mp listed with rfl | later
      · exact (extends_assertAll formulas).subset (definitions.mem_statements_assert formula)
      · exact induction later

end Definitions

namespace Argument.CuratedCase

variable {declarations : List Declaration} {formulas : List Formula} {conclusion : Formula}
  {theory : Theory}

theorem exists_statements_programOf (declarations : List Declaration) (formulas : List Formula)
    (conclusion : Formula) :
    ∃ asserted : List Formula, (∀ formula, formula ∈ asserted ↔ formula ∈ formulas) ∧
      (programOf declarations formulas conclusion).statements =
        (Definitions.empty.declareAll declarations).statements ++ asserted.map .assert := by
  obtain ⟨asserted, listed, statements⟩ :=
    (Definitions.empty.declareAll declarations).exists_statements_assertAll formulas
  refine ⟨asserted, fun formula => ⟨fun member => listed member, fun member => ?_⟩, statements⟩
  have inStatements : .assert formula ∈
      ((Definitions.empty.declareAll declarations).assertAll formulas).statements :=
    Definitions.mem_statements_assertAll member
  obtain ⟨declared, -, isDeclared⟩ := Definitions.empty.exists_statements_declareAll declarations
  rw [statements, isDeclared] at inStatements
  simpa [Definitions.empty] using inStatements

/-- The program consists of declarations, no more than are given, and then of the formulas. -/
theorem exists_parts_programOf (declarations : List Declaration) (formulas : List Formula)
    (conclusion : Formula) :
    (programOf declarations formulas conclusion).DeclaresFirst ∧
      (programOf declarations formulas conclusion).declarations.length ≤ declarations.length ∧
      ∀ formula, formula ∈ (programOf declarations formulas conclusion).assertions ↔
        formula ∈ formulas := by
  obtain ⟨asserted, listed, statements⟩ :=
    exists_statements_programOf declarations formulas conclusion
  obtain ⟨declared, few, isDeclared⟩ := Definitions.empty.exists_statements_declareAll declarations
  rw [isDeclared, Definitions.empty, List.nil_append] at statements
  have ownDeclarations : (programOf declarations formulas conclusion).declarations = declared := by
    rw [Program.declarations, statements]
    simp [Statement.declaration?, Function.comp_def]
  have ownAssertions : (programOf declarations formulas conclusion).assertions = asserted := by
    rw [Program.assertions, statements]
    simp [Statement.assertion?, Function.comp_def]
  rw [Program.DeclaresFirst, ownDeclarations, ownAssertions]
  exact ⟨statements, few, listed⟩

theorem nameSort?_programOf (count : Nat)
    (sorts : ∀ declaration ∈ declarations.take count, declaration.isSymbol = false)
    (known : ∀ declaration ∈ declarations.drop count, ∀ sortName ∈ declaration.namedSorts,
      .sort sortName ∈ declarations.take count)
    (executed : Theory.empty.executeAll (programOf declarations formulas conclusion).statements =
      .ok theory) (name : String) :
    theory.nameSort? name =
      (declarations.find? fun declaration => declaration.name == name).bind Declaration.sort? := by
  obtain ⟨asserted, -, statements⟩ := exists_statements_programOf declarations formulas conclusion
  obtain ⟨declared, declaredExecuted, mirrors⟩ :=
    Definitions.exists_executeAll_declareAll count sorts known
  rw [statements, Theory.executeAll_append_of_ok declaredExecuted] at executed
  obtain ⟨symbols, -⟩ := Theory.executeAll_assert executed
  rw [← Definitions.lookup?_declareAll_empty, ← mirrors.nameSort?, Theory.nameSort?, Theory.lookup?,
    symbols]
  rfl

/-! ## Chains -/

variable {first second third : String} {solver : Ground.Solver} {limit : Nat}

/-- The prover proves a conclusion that follows from universal formulas over the declared names. -/
theorem prove_programOf (decides : solver.DecidesGround)
    (isAccepted : (programOf declarations formulas conclusion).IsAccepted)
    (count : Nat) (sorts : ∀ declaration ∈ declarations.take count, declaration.isSymbol = false)
    (known : ∀ declaration ∈ declarations.drop count, ∀ sortName ∈ declaration.namedSorts,
      .sort sortName ∈ declarations.take count) {width : Nat}
    (universal : ∀ formula ∈ formulas ++ [.not conclusion],
      formula.negationNormal.IsUniversal width)
    (enough : max 1 declarations.length ^ width ≤ limit) (small : limit < countLimit)
    (entails : ∀ theory : Theory, (∀ formula ∈ formulas, formula ∈ theory.assertions) →
      (∀ name, theory.nameSort? name = (declarations.find? fun declaration =>
        declaration.name == name).bind Declaration.sort?) → theory.Entails.{0} conclusion) :
    (programOf declarations formulas conclusion).prove solver limit = .ok .proven := by
  obtain ⟨theory, executed, checked⟩ := isAccepted
  obtain ⟨declaresFirst, few, listed⟩ := exists_parts_programOf declarations formulas conclusion
  have fewChoices : max 1 (programOf declarations formulas conclusion).declarations.length ^ width ≤
      max 1 declarations.length ^ width :=
    Nat.pow_le_pow_left (by omega) width
  refine Program.prove_of_entails decides declaresFirst executed checked ?_
    (Nat.le_trans fewChoices enough) small ?_
  · simp only [List.forall_mem_append, listed] at universal ⊢
    exact universal
  · refine entails theory (fun formula member => ?_) (nameSort?_programOf count sorts known executed)
    rw [Program.theory_assertions executed]
    exact (listed formula).mpr member

theorem prove_comparisonProgram (decides : solver.DecidesGround)
    (ordinary : ∀ name ∈ [first, second, third], name ∉ [objectSort, "GreaterThan"])
    (enough : 8 ^ 3 ≤ limit) (small : limit < countLimit) :
    (comparisonProgram first second third).prove solver limit = .ok .proven := by
  refine prove_programOf decides (isAccepted_comparisonProgram ordinary) 1 (by simp; rfl) ?_ ?_ enough
    small ?_
  · simp +decide [Declaration.namedSorts, Declaration.sort?, Declaration.domain?, Declaration.object,
      Declaration.objectVariable, Declaration.link]
  · simp only [List.forall_mem_append, List.forall_mem_cons]
    exact ⟨⟨Formula.isUniversal_link, Formula.isUniversal_link,
      Formula.isUniversal_transitivity (Nat.le_refl 3), List.forall_mem_nil _⟩,
      Formula.isUniversal_not_link, List.forall_mem_nil _⟩
  · intro theory asserted sorts model reading reads holds
    have sorted := sort?_of_mem_comparison ordinary
    simp only [← sorts, List.forall_mem_cons] at sorted asserted
    obtain ⟨firstSorted, secondSorted, thirdSorted, xSorted, ySorted, zSorted, -⟩ := sorted
    obtain ⟨firstLink, secondLink, rule, -⟩ := asserted
    exact Structure.relation_of_transitivity (holds _ rule) (reads.sort_eq firstSorted xSorted)
      (reads.sort_eq secondSorted ySorted) (reads.sort_eq thirdSorted zSorted) (holds _ firstLink)
      (holds _ secondLink)

theorem prove_ancestryProgram (decides : solver.DecidesGround)
    (ordinary : ∀ name ∈ [first, second, third],
      name ∉ [objectSort, "Person", "Parent", "Ancestor"])
    (enough : 10 ^ 3 ≤ limit) (small : limit < countLimit) :
    (ancestryProgram first second third).prove solver limit = .ok .proven := by
  refine prove_programOf decides (isAccepted_ancestryProgram ordinary) 2
    (by simp; exact ⟨rfl, rfl⟩) ?_ ?_ enough small ?_
  · simp +decide [Declaration.namedSorts, Declaration.sort?, Declaration.domain?]
  · simp only [List.forall_mem_append, List.forall_mem_cons]
    exact ⟨⟨Formula.isUniversal_link, Formula.isUniversal_link,
      Formula.isUniversal_subrelation (by decide), Formula.isUniversal_transitivity (Nat.le_refl 3),
      List.forall_mem_nil _⟩, Formula.isUniversal_not_link, List.forall_mem_nil _⟩
  · intro theory asserted sorts model reading reads holds
    have sorted := sort?_of_mem_ancestry ordinary
    simp only [← sorts, List.forall_mem_cons] at sorted asserted
    obtain ⟨xSorted, ySorted, zSorted, firstSorted, secondSorted, thirdSorted, -⟩ := sorted
    obtain ⟨firstLink, secondLink, subrelation, rule, -⟩ := asserted
    have firstAncestor : model.relation "Ancestor" [reading first, reading second] :=
      Structure.relation_of_subrelation (holds _ subrelation) (reads.sort_eq firstSorted xSorted)
        (reads.sort_eq secondSorted ySorted) (holds _ firstLink)
    have secondAncestor : model.relation "Ancestor" [reading second, reading third] :=
      Structure.relation_of_subrelation (holds _ subrelation) (reads.sort_eq secondSorted xSorted)
        (reads.sort_eq thirdSorted ySorted) (holds _ secondLink)
    exact Structure.relation_of_transitivity (holds _ rule) (reads.sort_eq firstSorted xSorted)
      (reads.sort_eq secondSorted ySorted) (reads.sort_eq thirdSorted zSorted) firstAncestor
      secondAncestor

/-- Whatever the three names are, the program of a comparison or of an ancestry is accepted, and
proven by a solver that decides ground formulas. -/
theorem transitive_cases_proven (decides : solver.DecidesGround) {curated : CuratedCase}
    (transitive : curated ∈ [.comparison, .ancestry])
    (named : ∀ name ∈ [first, second, third], ∃ text, constantName text = some name) :
    (curated.program [first, second, third]).IsAccepted ∧
      (curated.program [first, second, third]).prove solver ProverSettings.default.instanceLimit =
        .ok .proven := by
  have small : ∀ name ∈ [first, second, third], IsSmallName name := by
    intro name member
    obtain ⟨text, isName⟩ := named name member
    exact isSmallName_of_constantName isName
  rcases List.mem_pair.mp transitive with rfl | rfl
  · exact ⟨isAccepted_program small (by decide), prove_comparisonProgram decides
      (fun name member => (small name member).not_mem (by decide)) (by decide) (by decide)⟩
  · exact ⟨isAccepted_program small (by decide), prove_ancestryProgram decides
      (fun name member => (small name member).not_mem (by decide)) (by decide) (by decide)⟩

/-- Two of the names are that of a bound variable. -/
theorem chainOfVariables_proven :
    ancestry ∈ [comparison, .ancestry] ∧
      (∀ name ∈ ["y", "x", "x"], ∃ text, constantName text = some name) ∧
      (ancestry.program ["y", "x", "x"]).IsAccepted ∧
      (ancestry.program ["y", "x", "x"]).prove .search ProverSettings.default.instanceLimit =
        .ok .proven := by
  have named : ∀ name ∈ ["y", "x", "x"], ∃ text, constantName text = some name := by
    have isY : constantName "Y" = some "y" := by decide +kernel
    have isX : constantName "x" = some "x" := by decide +kernel
    simp only [List.forall_mem_cons]
    exact ⟨⟨_, isY⟩, ⟨_, isX⟩, ⟨_, isX⟩, List.forall_mem_nil _⟩
  have transitive : ancestry ∈ [comparison, .ancestry] := by decide
  exact ⟨transitive, named,
    transitive_cases_proven Ground.Solver.search_decidesGround transitive named⟩

end Argument.CuratedCase

end Ergo
