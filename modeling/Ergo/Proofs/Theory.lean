import Ergo.Proof.Basic
import Ergo.Proofs.Formula.WellSorted
import Mathlib.Data.List.Nodup

/-!
Theories that statements build up. Main statements: no symbol is listed twice (`nodup_executeAll`),
and if the declarations come first, all assertions are well sorted over all of the declarations
(`Program.DeclaresFirst.wellSorted`).
-/

namespace Ergo

universe u

namespace Theory

variable {theory final : Theory}

/-! ## Symbols -/

def Distinct (theory : Theory) : Prop :=
  theory.symbolNames.Nodup

theorem distinct_empty : empty.Distinct := by
  simp [Distinct, symbolNames, empty]

theorem not_mem_symbolNames {name : String} (missing : theory.lookup? name = none) :
    name ∉ theory.symbolNames := by
  intro member
  obtain ⟨declaration, listed, same⟩ := List.mem_map.mp member
  have differs := List.find?_eq_none.mp missing declaration listed
  simp [same] at differs

theorem Distinct.lookup?_eq_some (distinct : theory.Distinct) {declaration : Declaration}
    (listed : declaration ∈ theory.symbols) :
    theory.lookup? declaration.name = some declaration := by
  cases found : theory.lookup? declaration.name with
  | none => exact absurd (List.mem_map_of_mem listed) (not_mem_symbolNames found)
  | some other =>
      have otherListed := List.mem_of_find?_eq_some found
      have sameName : other.name = declaration.name := by
        simpa using List.find?_some found
      exact congrArg some (List.inj_on_of_nodup_map distinct otherListed listed sameName)

theorem mem_symbolNames_iff {name : String} :
    name ∈ theory.symbolNames ↔ ∃ declaration, theory.lookup? name = some declaration := by
  constructor
  · intro member
    by_contra missing
    exact not_mem_symbolNames (Option.eq_none_iff_forall_ne_some.mpr (not_exists.mp missing)) member
  · rintro ⟨declaration, found⟩
    have same : declaration.name = name := by simpa using List.find?_some found
    exact same ▸ List.mem_map_of_mem (List.mem_of_find?_eq_some found)

theorem mem_symbolNames_of_nameSort? {name sortName : String}
    (isSorted : theory.nameSort? name = some sortName) : name ∈ theory.symbolNames := by
  obtain ⟨declaration, found, -⟩ := Option.bind_eq_some_iff.mp isSorted
  exact mem_symbolNames_iff.mpr ⟨declaration, found⟩

theorem mem_symbolNames_of_domain? {name : String} {domain : List String}
    (isApplied : theory.domain? name = some domain) : name ∈ theory.symbolNames := by
  obtain ⟨declaration, found, -⟩ := Option.bind_eq_some_iff.mp isApplied
  exact mem_symbolNames_iff.mpr ⟨declaration, found⟩

theorem Distinct.nameSort?_of_constants (distinct : theory.Distinct) {sortName name : String}
    (member : (sortName, name) ∈ theory.constants) : theory.nameSort? name = some sortName := by
  obtain ⟨declaration, listed, same⟩ := List.mem_filterMap.mp member
  cases declaration with
  | constant constantName constantSort =>
      simp only [Option.some.injEq, Prod.mk.injEq] at same
      obtain ⟨rfl, rfl⟩ := same
      have found := distinct.lookup?_eq_some listed
      rw [Declaration.name] at found
      rw [nameSort?, found]
      rfl
  | sort _ => simp at same
  | var _ _ => simp at same
  | predicate _ _ => simp at same
  | relation _ _ => simp at same

theorem nameSort?_of_freeVariableSort? {name sortName : String}
    (declared : theory.freeVariableSort? name = some sortName) :
    theory.nameSort? name = some sortName := by
  unfold freeVariableSort? at declared
  split at declared
  · next found =>
      rw [nameSort?, found]
      exact declared
  · exact absurd declared (by simp)

/-- A name with a sort is a declared constant or a declared variable. -/
theorem mem_constants_or_freeVariableSort? {name sortName : String}
    (isSorted : theory.nameSort? name = some sortName) :
    (sortName, name) ∈ theory.constants ∨ theory.freeVariableSort? name = some sortName := by
  obtain ⟨declaration, found, declarationSort⟩ := Option.bind_eq_some_iff.mp isSorted
  have listed := List.mem_of_find?_eq_some found
  have sameName : declaration.name = name := by simpa using List.find?_some found
  cases declaration with
  | constant constantName constantSort =>
      simp only [Declaration.sort?, Option.some.injEq] at declarationSort
      subst sameName declarationSort
      exact .inl (List.mem_filterMap.mpr ⟨_, listed, rfl⟩)
  | var variableName variableSort =>
      right
      rw [freeVariableSort?, found]
      exact declarationSort
  | sort _ => simp [Declaration.sort?] at declarationSort
  | predicate _ _ => simp [Declaration.sort?] at declarationSort
  | relation _ _ => simp [Declaration.sort?] at declarationSort

/-- A reading gives the declared constants and variables values of their sorts. -/
def Reads {model : Structure.{u}} (theory : Theory) (reading : model.Reading) : Prop :=
  ∀ name sortName, theory.nameSort? name = some sortName → (reading name).1 = sortName

/-- The conclusion is true in every structure in which the assertions are, with the declared
constants and variables read in their sorts. -/
def Entails (theory : Theory) (conclusion : Formula) : Prop :=
  ∀ (model : Structure.{u}) (reading : model.Reading), theory.Reads reading →
    (∀ assertion ∈ theory.assertions,
      Structure.Satisfies theory.variableSort reading assertion) →
    Structure.Satisfies theory.variableSort reading conclusion

theorem variableSort_of_nameSort? {name sortName : String}
    (isSorted : theory.nameSort? name = some sortName) : theory.variableSort name = sortName := by
  rw [variableSort, isSorted, Option.getD_some]

/-! ## Statements -/

theorem Distinct.addSymbol (distinct : theory.Distinct) (declaration : Declaration) :
    (theory.addSymbol declaration).Distinct := by
  unfold Theory.addSymbol
  split
  · exact distinct
  · next missing =>
      have outside : declaration.name ∉ theory.symbolNames :=
        not_mem_symbolNames (by simpa using missing)
      rw [Distinct, symbolNames, List.map_append, List.nodup_append]
      refine ⟨distinct, by simp, ?_⟩
      intro first firstListed second secondListed same
      simp only [List.map_cons, List.map_nil, List.mem_singleton] at secondListed
      exact outside (secondListed ▸ same ▸ firstListed)

theorem addSymbol_assertions (declaration : Declaration) :
    (theory.addSymbol declaration).assertions = theory.assertions := by
  unfold Theory.addSymbol
  split
  · rfl
  · rfl

theorem declare_cases {declaration : Declaration} (declared : theory.declare declaration = .ok final) :
    (∃ sorts, final = { theory with sorts := sorts }) ∨ final = theory.addSymbol declaration := by
  have added : ∀ {declaration : Declaration},
      (do theory.checkSorts declaration.namedSorts
          return theory.addSymbol declaration) = Except.ok final →
        final = theory.addSymbol declaration := by
    intro declaration declared
    cases checked : theory.checkSorts declaration.namedSorts with
    | error error => simp [checked, bind, Except.bind] at declared
    | ok _ =>
        simp only [checked, bind, Except.bind, pure, Except.pure, Except.ok.injEq] at declared
        exact declared.symm
  cases declaration with
  | sort name =>
      simp only [declare, Except.ok.injEq] at declared
      exact .inl ⟨_, declared.symm⟩
  | constant name sortName => exact .inr (added declared)
  | var name sortName => exact .inr (added declared)
  | predicate name domain => exact .inr (added declared)
  | relation name domain => exact .inr (added declared)

theorem execute_assert_eq {formula : Formula}
    (executed : theory.execute (.assert formula) = .ok final) :
    theory.check formula = .ok () ∧
      final = { theory with assertions := theory.assertions ++ [formula] } := by
  simp only [execute] at executed
  cases checked : theory.check formula with
  | error error => simp [checked, bind, Except.bind] at executed
  | ok _ =>
      simp only [checked, bind, Except.bind, pure, Except.pure, Except.ok.injEq] at executed
      exact ⟨rfl, executed.symm⟩

theorem Distinct.execute (distinct : theory.Distinct) {statement : Statement}
    (executed : theory.execute statement = .ok final) : final.Distinct := by
  cases statement with
  | declare declaration =>
      rcases declare_cases executed with ⟨sorts, rfl⟩ | rfl
      · exact distinct
      · exact distinct.addSymbol declaration
  | assert formula =>
      obtain ⟨-, rfl⟩ := execute_assert_eq executed
      exact distinct

theorem execute_assertions {statement : Statement}
    (executed : theory.execute statement = .ok final) :
    final.assertions = theory.assertions ++ statement.assertion?.toList := by
  cases statement with
  | declare declaration =>
      rw [Statement.assertion?, Option.toList_none, List.append_nil]
      rcases declare_cases executed with ⟨sorts, rfl⟩ | rfl
      · rfl
      · exact addSymbol_assertions declaration
  | assert formula =>
      obtain ⟨-, rfl⟩ := execute_assert_eq executed
      rfl

/-! ## Lists of statements -/

theorem executeAll_nil : theory.executeAll [] = .ok theory := rfl

theorem executeAll_cons_of_ok {middle : Theory} {statement : Statement}
    (executed : theory.execute statement = .ok middle) (statements : List Statement) :
    theory.executeAll (statement :: statements) = middle.executeAll statements := by
  rw [executeAll, executed]

theorem executeAll_cons {statement : Statement} {statements : List Statement}
    (executed : theory.executeAll (statement :: statements) = .ok final) :
    ∃ middle, theory.execute statement = .ok middle ∧
      middle.executeAll statements = .ok final := by
  rw [executeAll] at executed
  split at executed
  · exact absurd executed (by simp)
  · next middle first => exact ⟨middle, first, executed⟩

theorem executeAll_append {first second : List Statement}
    (executed : theory.executeAll (first ++ second) = .ok final) :
    ∃ middle, theory.executeAll first = .ok middle ∧ middle.executeAll second = .ok final := by
  induction first generalizing theory with
  | nil => exact ⟨theory, rfl, executed⟩
  | cons statement first induction =>
      obtain ⟨next, step, later⟩ := executeAll_cons executed
      obtain ⟨middle, firstExecuted, secondExecuted⟩ := induction later
      refine ⟨middle, ?_, secondExecuted⟩
      rwa [executeAll_cons_of_ok step]

theorem executeAll_append_of_ok {middle : Theory} {first second : List Statement}
    (executed : theory.executeAll first = .ok middle) :
    theory.executeAll (first ++ second) = middle.executeAll second := by
  induction first generalizing theory with
  | nil =>
      cases executed
      rfl
  | cons statement first induction =>
      obtain ⟨next, step, later⟩ := executeAll_cons executed
      rw [List.cons_append, executeAll_cons_of_ok step]
      exact induction later

theorem executeAll_singleton {statement : Statement} {later : Theory}
    (executed : theory.execute statement = .ok later) :
    theory.executeAll [statement] = .ok later := by
  rw [executeAll_cons_of_ok executed, executeAll_nil]

theorem Distinct.executeAll (distinct : theory.Distinct) {statements : List Statement}
    (executed : theory.executeAll statements = .ok final) : final.Distinct := by
  induction statements generalizing theory with
  | nil =>
      rw [executeAll_nil, Except.ok.injEq] at executed
      exact executed ▸ distinct
  | cons statement statements induction =>
      obtain ⟨next, step, later⟩ := executeAll_cons executed
      exact induction (distinct.execute step) later

theorem executeAll_assertions {statements : List Statement}
    (executed : theory.executeAll statements = .ok final) :
    final.assertions = theory.assertions ++ statements.filterMap Statement.assertion? := by
  induction statements generalizing theory with
  | nil =>
      rw [executeAll_nil, Except.ok.injEq] at executed
      rw [executed, List.filterMap_nil, List.append_nil]
  | cons statement statements induction =>
      obtain ⟨next, step, later⟩ := executeAll_cons executed
      rw [induction later, execute_assertions step, List.append_assoc, List.filterMap_cons]
      cases statement.assertion? <;> rfl

theorem length_symbols_addSymbol_le (declaration : Declaration) :
    (theory.addSymbol declaration).symbols.length ≤ theory.symbols.length + 1 := by
  unfold Theory.addSymbol
  split
  · exact Nat.le_succ _
  · simp

/-- Each declaration adds at most one symbol. -/
theorem length_symbols_executeAll_le {statements : List Statement}
    (executed : theory.executeAll statements = .ok final) :
    final.symbols.length ≤
      theory.symbols.length + (statements.filterMap Statement.declaration?).length := by
  induction statements generalizing theory with
  | nil =>
      rw [executeAll_nil, Except.ok.injEq] at executed
      simp [executed]
  | cons statement statements induction =>
      obtain ⟨next, step, later⟩ := executeAll_cons executed
      have laterSymbols := induction later
      cases statement with
      | declare declaration =>
          have own : next.symbols.length ≤ theory.symbols.length + 1 := by
            rcases declare_cases step with ⟨sorts, rfl⟩ | rfl
            · exact Nat.le_succ _
            · exact length_symbols_addSymbol_le declaration
          simp only [List.filterMap_cons, Statement.declaration?, List.length_cons]
          omega
      | assert formula =>
          obtain ⟨-, rfl⟩ := execute_assert_eq step
          rwa [List.filterMap_cons_none rfl]

/-- Assertions leave the symbols alone, and each is well sorted over them. -/
theorem executeAll_assert {formulas : List Formula}
    (executed : theory.executeAll (formulas.map .assert) = .ok final) :
    final.symbols = theory.symbols ∧
      ∀ formula ∈ formulas, Formula.WellSorted theory.sorting [] formula := by
  induction formulas generalizing theory with
  | nil =>
      rw [List.map_nil, executeAll_nil, Except.ok.injEq] at executed
      exact ⟨by rw [executed], by simp⟩
  | cons formula formulas induction =>
      obtain ⟨next, step, later⟩ := executeAll_cons executed
      obtain ⟨checked, rfl⟩ := execute_assert_eq step
      obtain ⟨symbols, wellSorted⟩ := induction later
      refine ⟨symbols, fun other member => ?_⟩
      rcases List.mem_cons.mp member with rfl | inLater
      · exact Formula.wellSorted_of_check checked
      · exact wellSorted other inLater

end Theory

/-! ## Programs -/

namespace Program

/-- All declarations come before the first assertion. -/
def DeclaresFirst (program : Program) : Prop :=
  program.statements = program.declarations.map .declare ++ program.assertions.map .assert

variable {program : Program} {theory : Theory}

theorem theory_distinct (executed : Theory.empty.executeAll program.statements = .ok theory) :
    theory.Distinct :=
  Theory.distinct_empty.executeAll executed

theorem theory_assertions (executed : Theory.empty.executeAll program.statements = .ok theory) :
    theory.assertions = program.assertions :=
  Theory.executeAll_assertions executed

theorem DeclaresFirst.wellSorted (declaresFirst : program.DeclaresFirst)
    (executed : Theory.empty.executeAll program.statements = .ok theory) :
    ∀ formula ∈ program.assertions, Formula.WellSorted theory.sorting [] formula := by
  rw [DeclaresFirst] at declaresFirst
  rw [declaresFirst] at executed
  obtain ⟨declared, _, asserted⟩ := Theory.executeAll_append executed
  obtain ⟨symbols, wellSorted⟩ := Theory.executeAll_assert asserted
  have sameLookup : theory.lookup? = declared.lookup? := by
    unfold Theory.lookup?
    rw [symbols]
  have sameSorting : theory.sorting = declared.sorting := by
    unfold Theory.sorting Theory.variableSort Theory.nameSort? Theory.domain?
    rw [sameLookup]
  rw [sameSorting]
  exact wellSorted

end Program

end Ergo
