import Ergo.Proofs.Argument.Compilation
import Ergo.Proofs.Theory.Attempts

/-!
Execution of definitions. While definitions are built up, the theory of their statements has the same
symbols (`Mirrors`); where a name is that of a sort, the theory has none. If all symbols are over one
sort, a formula that fits the definitions passes the checks of the theory (`check_of_accepts`).
-/

namespace Ergo

variable {theory : Theory} {definitions : Definitions} {formula : Formula}

/-! ## Symbols of definitions -/

/-- The declaration is of a symbol and not of a sort. -/
def Declaration.isSymbol (declaration : Declaration) : Bool :=
  declaration.kind != .sort

/-- The sorts that a declaration names are declared, or are `Object`. -/
def Definitions.KnowsSorts (definitions : Definitions) (declaration : Declaration) : Prop :=
  ∀ sortName ∈ declaration.namedSorts,
    sortName = objectSort ∨ .sort sortName ∈ definitions.declarations

structure Theory.Mirrors (theory : Theory) (definitions : Definitions) : Prop where
  lookups : ∀ name, theory.lookup? name =
    (definitions.lookup? name).filter Declaration.isSymbol
  sorts : ∀ sortName, sortName = objectSort ∨ .sort sortName ∈ definitions.declarations →
    sortName ∈ theory.sorts

theorem Declaration.eq_sort (declaration : Declaration) (isSort : declaration.isSymbol = false) :
    declaration = .sort declaration.name := by
  cases declaration with
  | sort name => rfl
  | constant _ _ => cases isSort
  | var _ _ => cases isSort
  | predicate _ _ => cases isSort
  | relation _ _ => cases isSort

namespace Theory

theorem mirrors_empty : Theory.empty.Mirrors Definitions.empty := by
  refine ⟨fun _ => rfl, ?_⟩
  rintro sortName (rfl | declared)
  · simp [Theory.empty]
  · cases declared

theorem Mirrors.nameSort? (mirrors : theory.Mirrors definitions) (name : String) :
    theory.nameSort? name = (definitions.lookup? name).bind Declaration.sort? := by
  rw [Theory.nameSort?, mirrors.lookups]
  cases definitions.lookup? name with
  | none => rfl
  | some declaration => cases declaration <;> rfl

theorem Mirrors.domain? (mirrors : theory.Mirrors definitions) (name : String) :
    theory.domain? name = (definitions.lookup? name).bind Declaration.domain? := by
  rw [Theory.domain?, mirrors.lookups]
  cases definitions.lookup? name with
  | none => rfl
  | some declaration => cases declaration <;> rfl

theorem Mirrors.addSymbol (mirrors : theory.Mirrors definitions) {declaration : Declaration}
    (new : definitions.lookup? declaration.name = none) (isSymbol : declaration.isSymbol = true) :
    (theory.addSymbol declaration).Mirrors (definitions.append (.declare declaration)) := by
  have missing : theory.lookup? declaration.name = none := by
    rw [mirrors.lookups, new]
    rfl
  rw [Theory.addSymbol, missing, Option.isSome_none, if_neg Bool.false_ne_true]
  constructor
  · intro name
    have found := mirrors.lookups name
    rw [Theory.lookup?] at found ⊢
    rw [List.find?_append, found, List.find?_singleton, Definitions.lookup?_append_declare]
    by_cases same : declaration.name = name
    · subst same
      simp [new, Option.filter, isSymbol]
    · simp [same]
  · rintro sortName (rfl | declared)
    · exact mirrors.sorts _ (.inl rfl)
    · rw [Definitions.declarations_append, List.mem_append, Statement.declaration?,
        Option.toList_some, List.mem_singleton] at declared
      rcases declared with earlier | rfl
      · exact mirrors.sorts _ (.inr earlier)
      · cases isSymbol

theorem Mirrors.addSort (mirrors : theory.Mirrors definitions) {name : String}
    (new : definitions.lookup? name = none) :
    Theory.Mirrors { theory with sorts := theory.sorts.insert name }
      (definitions.append (.declare (.sort name))) := by
  constructor
  · intro other
    have found := mirrors.lookups other
    rw [Theory.lookup?] at found ⊢
    rw [found, Definitions.lookup?_append_declare]
    by_cases same : name = other
    · subst same
      simp [new, Option.filter, Declaration.name, Declaration.isSymbol, Declaration.kind]
    · simp [Declaration.name, same]
  · rintro sortName isSort
    rw [NameSet.mem_insert]
    rcases isSort with rfl | declared
    · exact .inl (mirrors.sorts _ (.inl rfl))
    · rw [Definitions.declarations_append, List.mem_append, Statement.declaration?,
        Option.toList_some, List.mem_singleton] at declared
      rcases declared with earlier | own
      · exact .inl (mirrors.sorts _ (.inr earlier))
      · cases own
        exact .inr rfl

theorem Mirrors.declare (mirrors : theory.Mirrors definitions) {declaration : Declaration}
    (new : definitions.lookup? declaration.name = none)
    (known : definitions.KnowsSorts declaration) :
    ∃ later, theory.execute (.declare declaration) = .ok later ∧
      later.Mirrors (definitions.append (.declare declaration)) := by
  have checked : theory.checkSorts declaration.namedSorts = .ok () := by
    rw [checkSorts]
    split
    · next sortName missing =>
        have unknown := List.find?_some missing
        have inside := mirrors.sorts sortName (known sortName (List.mem_of_find?_eq_some missing))
        rw [NameSet.contains_iff_mem.mpr inside] at unknown
        cases unknown
    · rfl
  cases declaration with
  | sort name => exact ⟨_, rfl, mirrors.addSort new⟩
  | constant name sortName =>
      exact ⟨_, by simp only [execute, Theory.declare, checked]; rfl, mirrors.addSymbol new rfl⟩
  | var name sortName =>
      exact ⟨_, by simp only [execute, Theory.declare, checked]; rfl, mirrors.addSymbol new rfl⟩
  | predicate name domain =>
      exact ⟨_, by simp only [execute, Theory.declare, checked]; rfl, mirrors.addSymbol new rfl⟩
  | relation name domain =>
      exact ⟨_, by simp only [execute, Theory.declare, checked]; rfl, mirrors.addSymbol new rfl⟩

theorem Mirrors.assert (mirrors : theory.Mirrors definitions)
    (checked : theory.check formula = .ok ()) :
    ∃ later, theory.execute (.assert formula) = .ok later ∧
      later.Mirrors (definitions.append (.assert formula)) := by
  refine ⟨{ theory with assertions := theory.assertions ++ [formula] }, ?_, ?_, ?_⟩
  · rw [execute, checked]
    rfl
  · intro name
    rw [Definitions.lookup?_append_assert]
    exact mirrors.lookups name
  · rw [Definitions.declarations_append, Statement.declaration?, Option.toList_none, List.append_nil]
    exact mirrors.sorts

end Theory

/-! ## Running statements -/

/-- Definitions are executed if each declaration knows its sorts and each assertion passes the checks
of every theory of the definitions that it was added to. -/
theorem Definitions.Built.exists_executeAll {mayDeclare : Definitions → Declaration → Prop}
    {mayAssert : Definitions → Formula → Prop}
    (built : Definitions.Built mayDeclare mayAssert definitions)
    (declares : ∀ definitions declaration, mayDeclare definitions declaration →
      definitions.KnowsSorts declaration)
    (asserts : ∀ (theory : Theory) definitions formula,
      Definitions.Built mayDeclare mayAssert definitions → mayAssert definitions formula →
      theory.Mirrors definitions → theory.check formula = .ok ()) :
    ∃ theory, Theory.empty.executeAll definitions.statements = .ok theory ∧
      theory.Mirrors definitions := by
  induction built with
  | empty => exact ⟨_, rfl, Theory.mirrors_empty⟩
  | declare _ new may induction =>
      obtain ⟨theory, executed, mirrors⟩ := induction
      obtain ⟨later, step, laterMirrors⟩ := mirrors.declare new (declares _ _ may)
      refine ⟨later, ?_, laterMirrors⟩
      rw [append, Theory.executeAll_append_of_ok executed, Theory.executeAll_singleton step]
  | assert built may induction =>
      obtain ⟨theory, executed, mirrors⟩ := induction
      obtain ⟨later, step, laterMirrors⟩ := mirrors.assert (asserts theory _ _ built may mirrors)
      refine ⟨later, ?_, laterMirrors⟩
      rw [append, Theory.executeAll_append_of_ok executed, Theory.executeAll_singleton step]

namespace Definitions

/-! ## Lists of declarations -/

/-- A declared name is of a sort if all declarations are, apart from those of other names. -/
theorem sort?_of_find? {declarations : List Declaration} {others : List String}
    {name sortName : String} (listed : name ∈ declarations.map Declaration.name)
    (ordinary : name ∉ others)
    (each : ∀ declaration ∈ declarations, declaration.name ∈ others ∨
      declaration.sort? = some sortName) :
    (declarations.find? fun declaration => declaration.name == name).bind Declaration.sort? =
      some sortName := by
  cases found : declarations.find? fun declaration => declaration.name == name with
  | none =>
      obtain ⟨declaration, declared, same⟩ := List.mem_map.mp listed
      exact absurd (List.find?_eq_none.mp found declaration declared) (by simp [same])
  | some declaration =>
      have same : declaration.name = name := by simpa using List.find?_some found
      exact (each declaration (List.mem_of_find?_eq_some found)).resolve_left (same ▸ ordinary)

/-- Declarations are executed if the first of them are of sorts, and the others are over these. -/
theorem exists_executeAll_declareAll {declarations : List Declaration} (count : Nat)
    (sorts : ∀ declaration ∈ declarations.take count, declaration.isSymbol = false)
    (known : ∀ declaration ∈ declarations.drop count, ∀ sortName ∈ declaration.namedSorts,
      .sort sortName ∈ declarations.take count) :
    ∃ theory, Theory.empty.executeAll (empty.declareAll declarations).statements = .ok theory ∧
      theory.Mirrors (empty.declareAll declarations) := by
  -- Symbols know their sorts only over what the sorts have been declared in, so there are two stages.
  have sortsBuilt : Built KnowsSorts (fun _ _ => False)
      (empty.declareAll (declarations.take count)) := by
    refine Built.declaredAll .empty fun declaration listed _ _ sortName named => ?_
    rw [declaration.eq_sort (sorts declaration listed)] at named
    simp [Declaration.namedSorts, Declaration.sort?, Declaration.domain?] at named
  have built : Built KnowsSorts (fun _ _ => False) (empty.declareAll declarations) := by
    rw [← List.take_append_drop count declarations, declareAll, List.foldl_append]
    refine sortsBuilt.declaredAll fun declaration listed later extension sortName named => .inr ?_
    have declared := known declaration listed sortName named
    obtain ⟨first, found⟩ := Option.isSome_iff_exists.mp (@isSome_lookup?_declareAll empty _ _ declared)
    have isFirst : first = .sort sortName := by
      rw [lookup?_declareAll_empty] at found
      rw [first.eq_sort (sorts first (List.mem_of_find?_eq_some found))]
      simpa [Declaration.name] using List.find?_some found
    exact extension.mem_declarations (isFirst ▸ List.mem_of_find?_eq_some found)
  exact built.exists_executeAll (fun _ _ knows => knows) fun _ _ _ _ asserted => asserted.elim

end Definitions

/-! ## One sort -/

/-- All constants, variables and arguments are of one sort. -/
structure Theory.IsOver (theory : Theory) (sortName : String) : Prop where
  names : ∀ name other, theory.nameSort? name = some other → other = sortName
  domains : ∀ name domain, theory.domain? name = some domain → ∀ other ∈ domain, other = sortName

theorem Theory.Mirrors.isOver (mirrors : theory.Mirrors definitions) {sortName : String}
    (each : ∀ name declaration, definitions.lookup? name = some declaration →
      ∀ other ∈ declaration.namedSorts, other = sortName) : theory.IsOver sortName := by
  constructor
  · intro name other isSorted
    rw [mirrors.nameSort?] at isSorted
    obtain ⟨declaration, found, declared⟩ := Option.bind_eq_some_iff.mp isSorted
    refine each name declaration found other ?_
    simp [Declaration.namedSorts, declared]
  · intro name domain isApplied other inside
    rw [mirrors.domain?] at isApplied
    obtain ⟨declaration, found, declared⟩ := Option.bind_eq_some_iff.mp isApplied
    refine each name declaration found other ?_
    simp [Declaration.namedSorts, declared, inside]

namespace Theory

variable {sortName : String} {bound : List String} {bindings : BoundSorts}

theorem termSort_of_binds (binds : Formula.Binds theory bindings bound) {name : String}
    (inside : name ∈ bound) :
    theory.termSort bindings (.var name) = .ok (theory.variableSort name) := by
  rw [termSort_eq_ok_iff, boundSort?, binds, if_pos inside]
  rfl

theorem IsOver.termSort (isOver : theory.IsOver sortName) (mirrors : theory.Mirrors definitions)
    (binds : Formula.Binds theory bindings bound)
    (boundSorts : ∀ name ∈ bound, theory.variableSort name = sortName) {term : Term}
    (wellScoped : term.WellScoped (fun _ => True) bound)
    (accepted : definitions.acceptsTerm term = true) :
    theory.termSort bindings term = .ok sortName := by
  cases term with
  | constant name =>
      rw [Definitions.acceptsTerm, ← mirrors.nameSort?] at accepted
      obtain ⟨other, isSorted⟩ := Option.isSome_iff_exists.mp accepted
      rw [termSort_eq_ok_iff, Term.name, isSorted, isOver.names name other isSorted]
      rfl
  | var name => rw [termSort_of_binds binds wellScoped.2, boundSorts name wellScoped.2]

theorem IsOver.checkAtom_of_accepts (isOver : theory.IsOver sortName)
    (mirrors : theory.Mirrors definitions) (binds : Formula.Binds theory bindings bound)
    (boundSorts : ∀ name ∈ bound, theory.variableSort name = sortName) {predicate : String}
    {arguments : List Term}
    (wellScoped : ∀ argument ∈ arguments, argument.WellScoped (fun _ => True) bound)
    (accepted : definitions.acceptsAtom predicate arguments = true) :
    theory.checkAtom bindings predicate arguments = .ok () := by
  rw [Definitions.acceptsAtom, ← mirrors.domain?] at accepted
  cases isApplied : theory.domain? predicate with
  | none =>
      rw [isApplied] at accepted
      cases accepted
  | some domain =>
      rw [isApplied] at accepted
      simp only [Bool.and_eq_true, List.all_eq_true, beq_iff_eq] at accepted
      obtain ⟨sameLength, argumentsAccepted⟩ := accepted
      refine checkAtom_eq_ok_iff.mpr
        ⟨domain, isApplied, List.forall₂_iff_zip.mpr ⟨sameLength.symm, ?_⟩⟩
      intro argument expected paired
      obtain ⟨member, inside⟩ := List.of_mem_zip paired
      rw [isOver.domains predicate domain isApplied expected inside]
      exact isOver.termSort mirrors binds boundSorts (wellScoped argument member)
        (argumentsAccepted argument member)

/-- Over one sort, the checks ask for no more than that symbols are applied as they were declared. -/
theorem IsOver.checkFormula_of_accepts (isOver : theory.IsOver sortName)
    (mirrors : theory.Mirrors definitions) (binds : Formula.Binds theory bindings bound)
    (boundSorts : ∀ name ∈ bound, theory.variableSort name = sortName)
    (binderSorts : ∀ name ∈ formula.binderOccurrences, theory.variableSort name = sortName)
    (wellScoped : formula.WellScoped (fun _ => True) bound)
    (accepted : definitions.accepts formula = true) :
    theory.checkFormula bindings formula = .ok () := by
  -- On scopes, not on formulas: a variable has a sort because a quantifier around it binds its name.
  induction wellScoped generalizing bindings with
  | truth => rfl
  | falsity => rfl
  | atom _ argumentsScoped =>
      exact isOver.checkAtom_of_accepts mirrors binds boundSorts argumentsScoped accepted
  | equal leftScoped rightScoped =>
      rw [Definitions.accepts, Bool.and_eq_true] at accepted
      rw [checkFormula, checkEqual,
        isOver.termSort mirrors binds boundSorts leftScoped accepted.1,
        isOver.termSort mirrors binds boundSorts rightScoped accepted.2]
      simp only [bind, Except.bind, beq_self_eq_true, if_true]
      rfl
  | not _ induction => exact induction binds boundSorts binderSorts accepted
  | and _ induction =>
      simp only [Formula.binderOccurrences, Formula.partsBinderOccurrences_eq_flatMap,
        List.mem_flatMap] at binderSorts
      rw [Definitions.accepts, Definitions.acceptsParts_eq_all, List.all_eq_true] at accepted
      rw [checkFormula, checkFormulas_eq_ok_iff]
      exact fun part member => induction part member binds boundSorts
        (fun name inside => binderSorts name ⟨part, member, inside⟩) (accepted part member)
  | or _ induction =>
      simp only [Formula.binderOccurrences, Formula.partsBinderOccurrences_eq_flatMap,
        List.mem_flatMap] at binderSorts
      rw [Definitions.accepts, Definitions.acceptsParts_eq_all, List.all_eq_true] at accepted
      rw [checkFormula, checkFormulas_eq_ok_iff]
      exact fun part member => induction part member binds boundSorts
        (fun name inside => binderSorts name ⟨part, member, inside⟩) (accepted part member)
  | implies _ _ premiseInduction consequentInduction =>
      obtain ⟨premiseSorts, consequentSorts⟩ := List.forall_mem_append.mp binderSorts
      rw [Definitions.accepts, Bool.and_eq_true] at accepted
      rw [checkFormula, premiseInduction binds boundSorts premiseSorts accepted.1]
      exact consequentInduction binds boundSorts consequentSorts accepted.2
  | forAll _ _ _ induction =>
      obtain ⟨ownSorts, innerSorts⟩ := List.forall_mem_append.mp binderSorts
      exact induction (binds.bindSorts _) (List.forall_mem_append.mpr ⟨boundSorts, ownSorts⟩)
        innerSorts accepted
  | forSome _ _ _ induction =>
      obtain ⟨ownSorts, innerSorts⟩ := List.forall_mem_append.mp binderSorts
      exact induction (binds.bindSorts _) (List.forall_mem_append.mpr ⟨boundSorts, ownSorts⟩)
        innerSorts accepted

theorem IsOver.check_of_accepts (isOver : theory.IsOver sortName)
    (mirrors : theory.Mirrors definitions)
    (binderSorts : ∀ name ∈ formula.binderOccurrences, theory.variableSort name = sortName)
    (isScoped : formula.IsScoped) (accepted : definitions.accepts formula = true) :
    theory.check formula = .ok () :=
  isOver.checkFormula_of_accepts mirrors (fun _ => rfl) (by simp) binderSorts isScoped accepted

/-- A variable ranges over objects if everything is over objects, whether it is declared or not. -/
theorem IsOver.variableSort (isOver : theory.IsOver objectSort) (name : String) :
    theory.variableSort name = objectSort := by
  rw [Theory.variableSort]
  cases isSorted : theory.nameSort? name with
  | none => rfl
  | some other => exact isOver.names name other isSorted

end Theory

namespace Theory

variable {first second relation firstSort secondSort : String}

theorem check_link_iff (isApplied : theory.domain? relation = some [firstSort, secondSort]) :
    theory.check (.link relation first second) = .ok () ↔
      theory.nameSort? first = some firstSort ∧ theory.nameSort? second = some secondSort := by
  rw [check, Formula.link, checkFormula, checkAtom_eq_ok_iff, isApplied]
  simp [termSort_eq_ok_iff, boundSort?, Term.name]

theorem checkAtom_of_binds {bindings : BoundSorts} {bound : List String}
    (binds : Formula.Binds theory bindings bound)
    (isApplied : theory.domain? relation = some [firstSort, secondSort])
    (firstBound : first ∈ bound) (secondBound : second ∈ bound)
    (firstSorted : theory.nameSort? first = some firstSort)
    (secondSorted : theory.nameSort? second = some secondSort) :
    theory.checkFormula bindings (.atom relation [.var first, .var second]) = .ok () := by
  rw [checkFormula, checkAtom_eq_ok_iff]
  refine ⟨_, isApplied, .cons ?_ (.cons ?_ .nil)⟩
  · rw [termSort_of_binds binds firstBound, variableSort_of_nameSort? firstSorted]
  · rw [termSort_of_binds binds secondBound, variableSort_of_nameSort? secondSorted]

end Theory

/-- Definitions over objects are executed. -/
theorem Definitions.IsPlain.exists_executeAll (isPlain : definitions.IsPlain) :
    ∃ theory, Theory.empty.executeAll definitions.statements = .ok theory ∧
      theory.Mirrors definitions ∧ theory.IsOver objectSort := by
  have isOver : ∀ (theory : Theory) (definitions : Definitions), definitions.IsPlain →
      theory.Mirrors definitions → theory.IsOver objectSort := by
    intro theory definitions isPlain mirrors
    refine mirrors.isOver fun name declaration found => ?_
    obtain ⟨_, plain⟩ := isPlain.exists_mayDeclare
      (Definitions.mem_declarations_iff.mp (List.mem_of_find?_eq_some found))
    exact plain.overObjects
  obtain ⟨theory, executed, mirrors⟩ := Definitions.Built.exists_executeAll isPlain
    (fun _ _ plain sortName named => .inl (plain.overObjects sortName named))
    fun theory definitions formula built fits mirrors =>
      (isOver theory definitions built mirrors).check_of_accepts mirrors
        (fun name _ => (isOver theory definitions built mirrors).variableSort name) fits.isScoped
        fits.accepted
  exact ⟨theory, executed, mirrors, isOver theory definitions isPlain mirrors⟩

end Ergo
