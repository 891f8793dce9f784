import Ergo.Proofs.Argument.Execution

/-!
Which compiled programs are accepted. All are that are made sentence by sentence. Of the programs of
curated cases, that of a membership is refused if the member has the name of a class, since the first
declaration of the name then makes it an object.
-/

namespace Ergo

open Ergo.English

variable {theory : Theory} {definitions : Definitions} {formula conclusion : Formula}

/-! ## Accepted programs -/

namespace Program

variable {program : Program}

/-- Each statement is executed after those in front of it, and the conclusion passes the checks. -/
def IsAccepted (program : Program) : Prop :=
  ∃ theory, Theory.empty.executeAll program.statements = .ok theory ∧
    theory.check program.conclusion = .ok ()

theorem exists_prove_iff {solver : Ground.Solver} {limit : Nat} :
    (∃ outcome, program.prove solver limit = .ok outcome) ↔ program.IsAccepted := by
  unfold IsAccepted Program.prove
  simp only [bind_eq_ok_iff]
  constructor
  · rintro ⟨outcome, theory, executed, proved⟩
    refine ⟨theory, executed, ?_⟩
    split at proved
    · cases proved
    · next concluded =>
        obtain ⟨_, checked, -⟩ := bind_eq_ok_iff.mp concluded
        exact checked
  · rintro ⟨theory, executed, checked⟩
    exact ⟨_, theory, executed, by rw [Theory.prove, checked]; rfl⟩

end Program

namespace Theory

theorem check_of_assertions_iff {assertions : List Formula} :
    ({ theory with assertions := assertions } : Theory).check formula = .ok () ↔
      theory.check formula = .ok () := by
  have forward : Extends { theory with assertions := assertions } theory := fun _ _ found => found
  have backward : theory.Extends { theory with assertions := assertions } := fun _ _ found => found
  exact ⟨backward.checkFormula fun _ _ => rfl, forward.checkFormula fun _ _ => rfl⟩

theorem check_of_executeAll {final : Theory} {before after : List Statement}
    (executed : empty.executeAll before = .ok theory)
    (finalExecuted : empty.executeAll (before ++ .assert formula :: after) = .ok final) :
    theory.check formula = .ok () := by
  rw [executeAll_append_of_ok executed] at finalExecuted
  obtain ⟨_, step, -⟩ := executeAll_cons finalExecuted
  exact (execute_assert_eq step).1

end Theory

namespace Definitions

/-- An assertion that passes the checks leaves them as they are. -/
theorem exists_executeAll_assert
    (executed : Theory.empty.executeAll definitions.statements = .ok theory)
    (stored : ∀ other, .assert other ∈ definitions.statements → theory.check other = .ok ())
    (checked : theory.check formula = .ok ()) :
    ∃ later, Theory.empty.executeAll (definitions.assert formula).statements = .ok later ∧
      (∀ other, later.check other = .ok () ↔ theory.check other = .ok ()) ∧
      ∀ other, .assert other ∈ (definitions.assert formula).statements →
        later.check other = .ok () := by
  rcases definitions.assert_cases formula with ⟨-, same⟩ | added
  · rw [same]
    exact ⟨theory, executed, fun _ => .rfl, stored⟩
  · have next : theory.execute (.assert formula) =
        .ok { theory with assertions := theory.assertions ++ [formula] } := by
      rw [Theory.execute, checked]
      rfl
    rw [added]
    refine ⟨_, (Theory.executeAll_append_of_ok executed).trans (Theory.executeAll_singleton next),
      fun other => Theory.check_of_assertions_iff, fun other listed => ?_⟩
    rw [Theory.check_of_assertions_iff]
    rcases List.mem_append.mp listed with earlier | own
    · exact stored other earlier
    · cases List.mem_singleton.mp own
      exact checked

/-- Formulas are accepted after the definitions if they pass the checks as the conclusion does. -/
theorem isAccepted_assertAll_iff {formulas : List Formula}
    (executed : Theory.empty.executeAll definitions.statements = .ok theory)
    (stored : ∀ other, .assert other ∈ definitions.statements → theory.check other = .ok ()) :
    Program.IsAccepted ⟨(definitions.assertAll formulas).statements, conclusion⟩ ↔
      ∀ formula ∈ conclusion :: formulas, theory.check formula = .ok () := by
  induction formulas generalizing definitions theory with
  | nil => simp [Program.IsAccepted, assertAll, executed]
  | cons formula formulas induction =>
      have step : definitions.assertAll (formula :: formulas) =
          (definitions.assert formula).assertAll formulas := rfl
      rw [step]
      by_cases checked : theory.check formula = .ok ()
      · obtain ⟨later, laterExecuted, sameChecks, laterStored⟩ :=
          exists_executeAll_assert executed stored checked
        rw [induction laterExecuted laterStored]
        simp [sameChecks, checked]
      · refine iff_of_false ?_ fun each => checked (each formula (by simp))
        rintro ⟨final, finalExecuted, -⟩
        -- A formula that is asserted already has passed, so this one is asserted now.
        rcases definitions.assert_cases formula with ⟨known, -⟩ | added
        · exact checked (stored formula known)
        · obtain ⟨after, same⟩ := @extends_assertAll (definitions.assert formula) formulas
          have split : ((definitions.assert formula).assertAll formulas).statements =
              definitions.statements ++ .assert formula :: after := by
            rw [← same, added, append, List.append_assoc, List.singleton_append]
          rw [split] at finalExecuted
          exact checked (Theory.check_of_executeAll executed finalExecuted)

/-! ## One sort -/

/-- The formula applies symbols as they were declared, and all that it binds is of one sort. -/
structure FitsOver (definitions : Definitions) (sortName : String) (formula : Formula) : Prop where
  isScoped : formula.IsScoped
  accepted : definitions.accepts formula = true
  binders : ∀ name ∈ formula.binderOccurrences,
    (definitions.lookup? name).bind Declaration.sort? = some sortName

namespace FitsOver

variable {sortName relation other first second : String}

theorem property
    (isApplied : (definitions.lookup? relation).bind Declaration.domain? = some [sortName])
    (isSorted : (definitions.lookup? first).bind Declaration.sort? = some sortName) :
    definitions.FitsOver sortName (.property relation first) where
  isScoped := Formula.isScoped_property
  accepted := by
    simp [Formula.property, accepts, acceptsAtom, acceptsTerm, isApplied, isSorted]
  binders := by simp [Formula.property, Formula.binderOccurrences]

theorem link
    (isApplied : (definitions.lookup? relation).bind Declaration.domain? = some [sortName, sortName])
    (firstSorted : (definitions.lookup? first).bind Declaration.sort? = some sortName)
    (secondSorted : (definitions.lookup? second).bind Declaration.sort? = some sortName) :
    definitions.FitsOver sortName (.link relation first second) where
  isScoped := Formula.isScoped_link
  accepted := by
    simp [Formula.link, accepts, acceptsAtom, acceptsTerm, isApplied, firstSorted, secondSorted]
  binders := by simp [Formula.link, Formula.binderOccurrences]

theorem not (fits : definitions.FitsOver sortName formula) :
    definitions.FitsOver sortName (.not formula) where
  isScoped := .not fits.isScoped
  accepted := fits.accepted
  binders := fits.binders

theorem inclusion
    (isApplied : (definitions.lookup? relation).bind Declaration.domain? = some [sortName])
    (otherApplied : (definitions.lookup? other).bind Declaration.domain? = some [sortName])
    (isSorted : (definitions.lookup? "x").bind Declaration.sort? = some sortName) :
    definitions.FitsOver sortName (.inclusion relation other) where
  isScoped := Formula.isScoped_inclusion
  accepted := by
    simp [Formula.inclusion, accepts, acceptsAtom, acceptsTerm, isApplied, otherApplied]
  binders := by simp [Formula.inclusion, Formula.binderOccurrences, isSorted]

theorem subrelation
    (isApplied : (definitions.lookup? relation).bind Declaration.domain? = some [sortName, sortName])
    (otherApplied : (definitions.lookup? other).bind Declaration.domain? = some [sortName, sortName])
    (areSorted : ∀ name ∈ ["x", "y"],
      (definitions.lookup? name).bind Declaration.sort? = some sortName) :
    definitions.FitsOver sortName (.subrelation relation other) where
  isScoped := Formula.isScoped_subrelation
  accepted := by
    simp [Formula.subrelation, accepts, acceptsAtom, acceptsTerm, isApplied, otherApplied]
  binders := by simpa [Formula.subrelation, Formula.binderOccurrences] using areSorted

theorem transitivity
    (isApplied : (definitions.lookup? relation).bind Declaration.domain? = some [sortName, sortName])
    (areSorted : ∀ name ∈ ["x", "y", "z"],
      (definitions.lookup? name).bind Declaration.sort? = some sortName) :
    definitions.FitsOver sortName (.transitivity relation) where
  isScoped := Formula.isScoped_transitivity
  accepted := by
    simp [Formula.transitivity, accepts, acceptsAtom, acceptsTerm, isApplied]
  binders := by simpa [Formula.transitivity, Formula.binderOccurrences] using areSorted

end FitsOver

end Definitions

/-! ## Curated cases -/

namespace Argument.CuratedCase

variable {first second third : String}

theorem isAccepted_programOf_iff {declarations : List Declaration} {formulas : List Formula}
    (executed : Theory.empty.executeAll (Definitions.empty.declareAll declarations).statements =
      .ok theory) :
    (programOf declarations formulas conclusion).IsAccepted ↔
      ∀ formula ∈ conclusion :: formulas, theory.check formula = .ok () := by
  refine Definitions.isAccepted_assertAll_iff executed fun formula listed => ?_
  have asserted : formula ∈ (Definitions.empty.declareAll declarations).assertions :=
    Definitions.mem_assertions_iff.mpr listed
  rw [Definitions.assertions_declareAll] at asserted
  cases asserted

/-- A program over one sort is accepted if its symbols are applied as they were declared. -/
theorem isAccepted_programOf {declarations : List Declaration} {formulas : List Formula}
    (count : Nat) (sortName : String)
    (sorts : ∀ declaration ∈ declarations.take count, declaration.isSymbol = false)
    (declared : .sort sortName ∈ declarations.take count)
    (oneSort : ∀ declaration ∈ declarations, ∀ other ∈ declaration.namedSorts, other = sortName)
    (fits : ∀ definitions : Definitions, (∀ name, definitions.lookup? name =
        declarations.find? fun declaration => declaration.name == name) →
      ∀ formula ∈ conclusion :: formulas, definitions.FitsOver sortName formula) :
    (programOf declarations formulas conclusion).IsAccepted := by
  obtain ⟨theory, executed, mirrors⟩ := Definitions.exists_executeAll_declareAll count sorts
    fun declaration listed other named => by
      rw [oneSort declaration (List.mem_of_mem_drop listed) other named]
      exact declared
  have isOver : theory.IsOver sortName := by
    refine mirrors.isOver fun name declaration found => oneSort declaration ?_
    rw [Definitions.lookup?_declareAll_empty] at found
    exact List.mem_of_find?_eq_some found
  refine (isAccepted_programOf_iff executed).mpr fun formula listed => ?_
  have fitting := fits _ (Definitions.lookup?_declareAll_empty declarations) formula listed
  refine isOver.check_of_accepts mirrors (fun name bound => ?_) fitting.isScoped fitting.accepted
  have sorted := fitting.binders name bound
  rw [← mirrors.nameSort?] at sorted
  exact Theory.variableSort_of_nameSort? sorted

theorem isAccepted_mortalityProgram : mortalityProgram.IsAccepted := by
  refine isAccepted_programOf 1 objectSort (by decide) (by decide) (by decide) ?_
  intro definitions lookups
  simp only [List.forall_mem_cons]
  refine ⟨.property ?_ ?_, .inclusion ?_ ?_ ?_, .property ?_ ?_, List.forall_mem_nil _⟩ <;>
    rw [lookups] <;> rfl

theorem isAccepted_flightProgram : flightProgram.IsAccepted := by
  refine isAccepted_programOf 1 objectSort (by decide) (by decide) (by decide) ?_
  intro definitions lookups
  simp only [List.forall_mem_cons]
  refine ⟨.not (.property ?_ ?_), .inclusion ?_ ?_ ?_, .property ?_ ?_, List.forall_mem_nil _⟩ <;>
    rw [lookups] <;> rfl

/-- The names and the variables of a comparison are objects. -/
theorem sort?_of_mem_comparison
    (ordinary : ∀ name ∈ [first, second, third], name ∉ [objectSort, "GreaterThan"]) :
    ∀ name ∈ [first, second, third, "x", "y", "z"],
      (([.sort objectSort, .link "GreaterThan", .object first, .object second, .object third,
        .objectVariable "x", .objectVariable "y", .objectVariable "z"] : List Declaration).find?
          fun declaration => declaration.name == name).bind Declaration.sort? = some objectSort := by
  have usual : ∀ name ∈ [first, second, third, "x", "y", "z"],
      name ∉ [objectSort, "GreaterThan"] := by
    simp only [List.forall_mem_cons] at ordinary ⊢
    exact ⟨ordinary.1, ordinary.2.1, ordinary.2.2.1, by decide, by decide, by decide,
      List.forall_mem_nil _⟩
  intro name member
  refine Definitions.sort?_of_find? ?_ (usual name member) ?_
  · exact List.mem_append_right [objectSort, "GreaterThan"] member
  · simp [Declaration.name, Declaration.sort?, Declaration.object, Declaration.objectVariable,
      Declaration.link]

theorem isAccepted_comparisonProgram
    (ordinary : ∀ name ∈ [first, second, third], name ∉ [objectSort, "GreaterThan"]) :
    (comparisonProgram first second third).IsAccepted := by
  refine isAccepted_programOf 1 objectSort (by simp; rfl) (by simp) ?_ ?_
  · simp +decide [Declaration.namedSorts, Declaration.sort?, Declaration.domain?, Declaration.object,
      Declaration.objectVariable, Declaration.link]
  · intro definitions lookups
    have related : (definitions.lookup? "GreaterThan").bind Declaration.domain? =
        some [objectSort, objectSort] := by
      rw [lookups]
      rfl
    have sorted := sort?_of_mem_comparison ordinary
    simp only [← lookups, List.forall_mem_cons] at sorted ⊢
    obtain ⟨firstSorted, secondSorted, thirdSorted, xSorted, ySorted, zSorted, -⟩ := sorted
    exact ⟨.link related firstSorted thirdSorted, .link related firstSorted secondSorted,
      .link related secondSorted thirdSorted,
      .transitivity related (by simp [xSorted, ySorted, zSorted]), List.forall_mem_nil _⟩

/-- The names and the variables of an ancestry are persons. -/
theorem sort?_of_mem_ancestry
    (ordinary : ∀ name ∈ [first, second, third],
      name ∉ [objectSort, "Person", "Parent", "Ancestor"]) :
    ∀ name ∈ ["x", "y", "z", first, second, third],
      (([.sort objectSort, .sort "Person", .relation "Parent" ["Person", "Person"],
        .relation "Ancestor" ["Person", "Person"], .var "x" "Person", .var "y" "Person",
        .var "z" "Person", .constant first "Person", .constant second "Person",
        .constant third "Person"] : List Declaration).find?
          fun declaration => declaration.name == name).bind Declaration.sort? = some "Person" := by
  have usual : ∀ name ∈ ["x", "y", "z", first, second, third],
      name ∉ [objectSort, "Person", "Parent", "Ancestor"] := by
    simp only [List.forall_mem_cons] at ordinary ⊢
    exact ⟨by decide, by decide, by decide, ordinary⟩
  intro name member
  refine Definitions.sort?_of_find? ?_ (usual name member) ?_
  · exact List.mem_append_right [objectSort, "Person", "Parent", "Ancestor"] member
  · simp [Declaration.name, Declaration.sort?]

theorem isAccepted_ancestryProgram
    (ordinary : ∀ name ∈ [first, second, third],
      name ∉ [objectSort, "Person", "Parent", "Ancestor"]) :
    (ancestryProgram first second third).IsAccepted := by
  refine isAccepted_programOf 2 "Person" (by simp; exact ⟨rfl, rfl⟩) (by simp) ?_ ?_
  · simp +decide [Declaration.namedSorts, Declaration.sort?, Declaration.domain?]
  · intro definitions lookups
    have isParent : (definitions.lookup? "Parent").bind Declaration.domain? =
        some ["Person", "Person"] := by
      rw [lookups]
      rfl
    have isAncestor : (definitions.lookup? "Ancestor").bind Declaration.domain? =
        some ["Person", "Person"] := by
      rw [lookups]
      rfl
    have sorted := sort?_of_mem_ancestry ordinary
    simp only [← lookups, List.forall_mem_cons] at sorted ⊢
    obtain ⟨xSorted, ySorted, zSorted, firstSorted, secondSorted, thirdSorted, -⟩ := sorted
    exact ⟨.link isAncestor firstSorted thirdSorted, .link isParent firstSorted secondSorted,
      .link isParent secondSorted thirdSorted,
      .subrelation isParent isAncestor (by simp [xSorted, ySorted]),
      .transitivity isAncestor (by simp [xSorted, ySorted, zSorted]), List.forall_mem_nil _⟩

/-! ## Memberships -/

section Membership

variable {element part whole : String}

theorem check_memberRule (members : theory.domain? "ElementOf" = some [objectSort, "Set"])
    (parts : theory.domain? "SubsetOf" = some ["Set", "Set"])
    (elementSorted : theory.nameSort? element = some objectSort)
    (partSorted : theory.nameSort? part = some "Set")
    (wholeSorted : theory.nameSort? whole = some "Set") :
    theory.check (memberRule element part whole) = .ok () := by
  have binds : Formula.Binds theory
      (theory.bindSorts [part, whole] ++ (theory.bindSorts [element] ++ []))
      (([] ++ [element]) ++ [part, whole]) :=
    Formula.Binds.bindSorts (Formula.Binds.bindSorts (fun _ => rfl) _) _
  rw [Theory.check, Theory.checkFormula, Theory.checkFormula, Theory.checkFormula, bind_eq_ok_iff]
  refine ⟨(), ?_,
    Theory.checkAtom_of_binds binds members (by simp) (by simp) elementSorted wholeSorted⟩
  rw [Theory.checkFormula, Theory.checkFormulas_eq_ok_iff]
  simp only [List.forall_mem_cons]
  exact ⟨Theory.checkAtom_of_binds binds members (by simp) (by simp) elementSorted partSorted,
    Theory.checkAtom_of_binds binds parts (by simp) (by simp) partSorted wholeSorted,
    List.forall_mem_nil _⟩

/-- The declarations of a membership are executed. It depends on the sorts that the three names then
have whether its formulas are accepted. -/
theorem exists_isAccepted_membershipProgram_iff (element part whole : String) :
    ∃ theory : Theory,
      (∀ name, theory.nameSort? name =
        (([.sort objectSort, .sort "Set", .relation "ElementOf" [objectSort, "Set"],
          .relation "SubsetOf" ["Set", "Set"], .constant element objectSort, .constant part "Set",
          .constant whole "Set"] : List Declaration).find? fun declaration =>
            declaration.name == name).bind Declaration.sort?) ∧
      ((membershipProgram element part whole).IsAccepted ↔
        theory.nameSort? element = some objectSort ∧ theory.nameSort? part = some "Set" ∧
          theory.nameSort? whole = some "Set") := by
  obtain ⟨theory, executed, mirrors⟩ := @Definitions.exists_executeAll_declareAll
    [.sort objectSort, .sort "Set", .relation "ElementOf" [objectSort, "Set"],
      .relation "SubsetOf" ["Set", "Set"], .constant element objectSort, .constant part "Set",
      .constant whole "Set"] 2 (by simp; exact ⟨rfl, rfl⟩)
    (by simp +decide [Declaration.namedSorts, Declaration.sort?, Declaration.domain?])
  have members : theory.domain? "ElementOf" = some [objectSort, "Set"] := by
    rw [mirrors.domain?, Definitions.lookup?_declareAll_empty]
    rfl
  have parts : theory.domain? "SubsetOf" = some ["Set", "Set"] := by
    rw [mirrors.domain?, Definitions.lookup?_declareAll_empty]
    rfl
  refine ⟨theory, fun name => ?_, (isAccepted_programOf_iff executed).trans ?_⟩
  · rw [mirrors.nameSort?, Definitions.lookup?_declareAll_empty]
  · simp only [List.forall_mem_cons, Theory.check_link_iff members, Theory.check_link_iff parts]
    constructor
    · rintro ⟨⟨elementSorted, wholeSorted⟩, ⟨partSorted, -⟩, -⟩
      exact ⟨elementSorted, partSorted, wholeSorted⟩
    · rintro ⟨elementSorted, partSorted, wholeSorted⟩
      exact ⟨⟨elementSorted, wholeSorted⟩, ⟨partSorted, wholeSorted⟩, ⟨elementSorted, partSorted⟩,
        check_memberRule members parts elementSorted partSorted wholeSorted,
    List.forall_mem_nil _⟩

/-- A membership of other names than the program fixes is accepted if the member and the classes have
different names. -/
theorem isAccepted_membershipProgram_iff
    (ordinary : ∀ name ∈ [element, part, whole],
      name ∉ [objectSort, "Set", "ElementOf", "SubsetOf"]) :
    (membershipProgram element part whole).IsAccepted ↔ element ≠ part ∧ element ≠ whole := by
  obtain ⟨theory, sorts, isAccepted⟩ := exists_isAccepted_membershipProgram_iff element part whole
  refine isAccepted.trans ⟨?_, ?_⟩
  · rintro ⟨elementSorted, partSorted, wholeSorted⟩
    have otherSorts : some objectSort ≠ some "Set" := by decide
    constructor
    · rintro rfl
      exact otherSorts (elementSorted.symm.trans partSorted)
    · rintro rfl
      exact otherSorts (elementSorted.symm.trans wholeSorted)
  · rintro ⟨notPart, notWhole⟩
    simp only [List.forall_mem_cons] at ordinary
    obtain ⟨elementOrdinary, partOrdinary, wholeOrdinary, -⟩ := ordinary
    refine ⟨?_, ?_, ?_⟩
    · rw [sorts]
      apply @Definitions.sort?_of_find? _ [objectSort, "Set", "ElementOf", "SubsetOf", part, whole]
      · simp [Declaration.name]
      · simpa [notPart, notWhole] using elementOrdinary
      · simp [Declaration.name, Declaration.sort?]
    · rw [sorts]
      apply @Definitions.sort?_of_find? _ [objectSort, "Set", "ElementOf", "SubsetOf", element]
      · simp [Declaration.name]
      · simpa [notPart.symm] using partOrdinary
      · simp [Declaration.name, Declaration.sort?]
    · rw [sorts]
      apply @Definitions.sort?_of_find? _ [objectSort, "Set", "ElementOf", "SubsetOf", element]
      · simp [Declaration.name]
      · simpa [notWhole.symm] using wholeOrdinary
      · simp [Declaration.name, Declaration.sort?]

end Membership

section Captured

variable {curated : CuratedCase} {names : CaseNames}

theorem isAccepted_program (small : ∀ name ∈ names, IsSmallName name)
    (notMembership : curated ≠ .membership) : (curated.program names).IsAccepted := by
  unfold program
  split
  · exact isAccepted_mortalityProgram
  · exact isAccepted_flightProgram
  · exact absurd rfl notMembership
  · exact absurd rfl notMembership
  · exact isAccepted_comparisonProgram fun name member => (small name member).not_mem (by decide)
  · exact isAccepted_comparisonProgram (by decide)
  · exact isAccepted_ancestryProgram fun name member => (small name member).not_mem (by decide)
  · exact isAccepted_ancestryProgram (by decide)

theorem exists_program_membership (small : ∀ name ∈ names, IsSmallName name) :
    ∃ element part whole, membership.program names = membershipProgram element part whole ∧
      ((membershipProgram element part whole).IsAccepted ↔ element ≠ part ∧ element ≠ whole) := by
  have own : (membershipProgram "x" "A" "B").IsAccepted ↔ "x" ≠ "A" ∧ "x" ≠ "B" :=
    isAccepted_membershipProgram_iff (by decide)
  match names with
  | [element, part, whole] =>
      exact ⟨element, part, whole, rfl, isAccepted_membershipProgram_iff fun name member =>
        (small name member).not_mem (by decide)⟩
  | [] => exact ⟨_, _, _, rfl, own⟩
  | [_] => exact ⟨_, _, _, rfl, own⟩
  | [_, _] => exact ⟨_, _, _, rfl, own⟩
  | _ :: _ :: _ :: _ :: _ => exact ⟨_, _, _, rfl, own⟩

end Captured

end Argument.CuratedCase

/-! ## Compiled programs -/

namespace Argument.Compiler

variable {compiler : Compiler} {premises : List String} {goal : String} {compiled : Compiled}

theorem isAccepted_of_isPlain (isPlain : definitions.IsPlain) (fits : definitions.Fits conclusion) :
    Program.IsAccepted ⟨definitions.statements, conclusion⟩ := by
  obtain ⟨theory, executed, mirrors, isOver⟩ := isPlain.exists_executeAll
  refine ⟨theory, executed, ?_⟩
  exact isOver.check_of_accepts mirrors (fun name _ => isOver.variableSort name) fits.isScoped
    fits.accepted

/-- A compiled program is executed and its conclusion passes the checks, which is to say that the
prover answers with every solver and under every limit, unless it is that of a membership in which
the member has the name of one of the classes. -/
theorem isAccepted_of_compile (accepted : compiler.compile premises goal = .ok compiled) :
    (compiled.case? ≠ some .membership → compiled.program.IsAccepted) ∧
    (compiled.case? = some .membership → ∃ element part whole,
      compiled.program = CuratedCase.membershipProgram element part whole ∧
        (compiled.program.IsAccepted ↔ element ≠ part ∧ element ≠ whole)) ∧
    ∀ solver limit, (∃ outcome, compiled.program.prove solver limit = .ok outcome) ↔
      compiled.program.IsAccepted := by
  refine ⟨?_, ?_, fun solver limit => Program.exists_prove_iff⟩
  · intro notMembership
    rcases compile_cases accepted with
      ⟨curated, names, isCase, small, same⟩ | ⟨-, definitions, plain, same, fits⟩
    · rw [same]
      exact CuratedCase.isAccepted_program small fun isMembership =>
        notMembership (isMembership ▸ isCase)
    · have isAccepted := isAccepted_of_isPlain plain fits
      rw [← same] at isAccepted
      exact isAccepted
  · intro isMembership
    rcases compile_cases accepted with ⟨curated, names, isCase, small, same⟩ | ⟨noCase, -⟩
    · cases isCase.symm.trans isMembership
      obtain ⟨element, part, whole, program, isAccepted⟩ := CuratedCase.exists_program_membership small
      refine ⟨element, part, whole, same.trans program, ?_⟩
      rw [same, program]
      exact isAccepted
    · rw [noCase] at isMembership
      cases isMembership

theorem tomIsWise_isAccepted :
    (ofSettings .default).compile ["All cats are mortal.", "Tom is wise."] "Tom is wise." =
        .ok tomIsWise ∧
      tomIsWise.program.IsAccepted :=
  ⟨compile_tomIsWise, (isAccepted_of_compile compile_tomIsWise).1 (by decide)⟩

/-- What is compiled from premises that make a rose a member of roses, and roses a part of flowers. -/
def roseOfRoses : Compiled :=
  { program := CuratedCase.membershipProgram "rose" "rose" "flowers"
    triples := []
    case? := some .membership }

theorem compile_roseOfRoses :
    (ofSettings .default).compile ["Rose is a subset of flowers.", "Rose is an element of rose."]
      "Rose is an element of flowers." = .ok roseOfRoses := by
  have stated : statedTexts ["Rose is a subset of flowers.", "Rose is an element of rose."] =
      ["Rose is a subset of flowers.", "Rose is an element of rose."] := by
    decide +kernel
  have trimmed : Text.trim "Rose is an element of flowers." = "Rose is an element of flowers." := by
    decide +kernel
  have text : CaseText.ofArgument ["Rose is a subset of flowers.", "Rose is an element of rose."]
      "Rose is an element of flowers." =
      { premises := ["rose is a subset of flowers.", "rose is an element of rose."]
        conclusion := "rose is an element of flowers." } := by
    decide +kernel
  have resolved : (ofSettings .default).library.resolve?
      ["Rose is a subset of flowers.", "Rose is an element of rose."]
      "Rose is an element of flowers." =
      some { curated := .membership, program := roseOfRoses.program } := by
    rw [CaseLibrary.resolve?, text]
    decide +kernel
  rw [compile, stated, trimmed]
  simp only [resolved]
  rfl

/-- A member that has the name of its class makes the prover refuse a compiled program. -/
theorem not_isAccepted_of_compile :
    ¬ ∀ settings premises goal compiled, (ofSettings settings).compile premises goal = .ok compiled →
        compiled.program.IsAccepted := by
  intro claimed
  have accepted := claimed _ _ _ _ compile_roseOfRoses
  have different := (CuratedCase.isAccepted_membershipProgram_iff (by decide)).mp accepted
  exact different.1 rfl

end Argument.Compiler

end Ergo
