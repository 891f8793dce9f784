import Ergo.Argument.Definitions
import Ergo.Proofs.Formula.Scope
import Mathlib.Data.List.Nodup

/-!
Definitions that are built up one statement at a time. Each declaration is of a new name, so no name is
declared twice (`Built.nodup_names`), and what is asserted fits the statements in front of it
(`Built.mayAssert_of_split`).
-/

namespace Ergo

variable {definitions later : Definitions} {mayDeclare : Definitions → Declaration → Prop}
  {mayAssert : Definitions → Formula → Prop}

namespace Definitions

/-! ## The table and the set -/

/-- The table and the set follow from the statements. -/
theorem ext_statements (same : definitions.statements = later.statements) : definitions = later := by
  cases definitions with
  | mk declarations assertions statements declarations_eq assertions_eq =>
      cases later with
      | mk _ _ _ laterDeclarations_eq laterAssertions_eq =>
          cases same
          cases declarations_eq.trans laterDeclarations_eq.symm
          cases assertions_eq.trans laterAssertions_eq.symm
          rfl

theorem ofStatements_statements (definitions : Definitions) :
    ofStatements definitions.statements = definitions :=
  ext_statements rfl

theorem mem_declarations_iff {declaration : Declaration} :
    declaration ∈ definitions.declarations ↔ .declare declaration ∈ definitions.statements := by
  rw [declarations_eq, List.mem_filterMap]
  constructor
  · rintro ⟨statement, listed, isDeclaration⟩
    cases statement with
    | declare other =>
        cases isDeclaration
        exact listed
    | assert formula => cases isDeclaration
  · intro listed
    exact ⟨_, listed, rfl⟩

theorem mem_assertions_iff {formula : Formula} :
    formula ∈ definitions.assertions ↔ .assert formula ∈ definitions.statements := by
  rw [assertions_eq, List.mem_filterMap]
  constructor
  · rintro ⟨statement, listed, isAssertion⟩
    cases statement with
    | declare declaration => cases isAssertion
    | assert other =>
        cases isAssertion
        exact listed
  · intro listed
    exact ⟨_, listed, rfl⟩

/-! ## Look-ups -/

theorem declarations_append (statement : Statement) :
    (definitions.append statement).declarations =
      definitions.declarations ++ statement.declaration?.toList := rfl

theorem lookup?_append_declare (declaration : Declaration) (name : String) :
    (definitions.append (.declare declaration)).lookup? name =
      (definitions.lookup? name).or
        (if declaration.name == name then some declaration else none) := by
  rw [lookup?, declarations_append, List.find?_append, lookup?, Statement.declaration?,
    Option.toList_some, List.find?_singleton]

theorem lookup?_append_assert (formula : Formula) (name : String) :
    (definitions.append (.assert formula)).lookup? name = definitions.lookup? name := by
  rw [lookup?, declarations_append, Statement.declaration?, Option.toList_none, List.append_nil,
    lookup?]

/-- The later definitions begin with the statements of the earlier. -/
def Extends (later definitions : Definitions) : Prop :=
  definitions.statements <+: later.statements

theorem Extends.refl (definitions : Definitions) : definitions.Extends definitions :=
  List.prefix_rfl

theorem Extends.trans {last : Definitions} (lastExtends : last.Extends later)
    (laterExtends : later.Extends definitions) : last.Extends definitions :=
  List.IsPrefix.trans laterExtends lastExtends

theorem Extends.mem_declarations (extension : later.Extends definitions) {declaration : Declaration}
    (declared : declaration ∈ definitions.declarations) : declaration ∈ later.declarations :=
  mem_declarations_iff.mpr (extension.subset (mem_declarations_iff.mp declared))

theorem Extends.lookup? (extension : later.Extends definitions) {name : String}
    {declaration : Declaration} (found : definitions.lookup? name = some declaration) :
    later.lookup? name = some declaration := by
  obtain ⟨added, same⟩ := List.IsPrefix.filterMap Statement.declaration? extension
  rw [Definitions.lookup?, declarations_eq, ← same, List.find?_append]
  rw [Definitions.lookup?, declarations_eq] at found
  rw [found]
  rfl

theorem extends_append (statement : Statement) :
    (definitions.append statement).Extends definitions :=
  List.prefix_append _ _

theorem declare_cases (definitions : Definitions) (declaration : Declaration) :
    ((definitions.lookup? declaration.name).isSome ∧
        definitions.declare declaration = definitions) ∨
      (definitions.lookup? declaration.name = none ∧
        definitions.declare declaration = definitions.append (.declare declaration)) := by
  cases found : definitions.lookup? declaration.name with
  | some other => exact .inl ⟨rfl, by simp [declare, declare?, found]⟩
  | none => exact .inr ⟨rfl, by simp [declare, declare?, found]⟩

theorem extends_declare (declaration : Declaration) :
    (definitions.declare declaration).Extends definitions := by
  rcases definitions.declare_cases declaration with ⟨-, same⟩ | ⟨-, same⟩
  · rw [same]
    exact .refl definitions
  · rw [same]
    exact extends_append _

theorem isSome_lookup?_declare (declaration : Declaration) :
    ((definitions.declare declaration).lookup? declaration.name).isSome = true := by
  rcases definitions.declare_cases declaration with ⟨found, same⟩ | ⟨-, same⟩
  · rwa [same]
  · rw [same, lookup?_append_declare, Option.isSome_or]
    simp

theorem Extends.isSome_lookup? (extension : later.Extends definitions) {name : String}
    (found : (definitions.lookup? name).isSome = true) : (later.lookup? name).isSome = true := by
  obtain ⟨declaration, found⟩ := Option.isSome_iff_exists.mp found
  rw [extension.lookup? found]
  rfl

theorem extends_declareAll (declarations : List Declaration) :
    (definitions.declareAll declarations).Extends definitions := by
  induction declarations generalizing definitions with
  | nil => exact .refl definitions
  | cons declaration declarations induction => exact induction.trans (extends_declare declaration)

theorem isSome_lookup?_declareAll {declarations : List Declaration} {declaration : Declaration}
    (listed : declaration ∈ declarations) :
    ((definitions.declareAll declarations).lookup? declaration.name).isSome = true := by
  induction declarations generalizing definitions with
  | nil => cases listed
  | cons first declarations induction =>
      rcases List.mem_cons.mp listed with rfl | inLater
      · exact (extends_declareAll declarations).isSome_lookup? (isSome_lookup?_declare declaration)
      · exact induction inLater

theorem lookup?_declare (declaration : Declaration) (name : String) :
    (definitions.declare declaration).lookup? name =
      (definitions.lookup? name).or
        (if declaration.name == name then some declaration else none) := by
  rcases definitions.declare_cases declaration with ⟨found, same⟩ | ⟨-, same⟩
  · rw [same]
    by_cases own : declaration.name = name
    · subst own
      rw [Option.or_of_isSome found]
    · simp [own]
  · rw [same, lookup?_append_declare]

/-- The first declaration of a name is the one that holds. -/
theorem lookup?_declareAll (declarations : List Declaration) (name : String) :
    (definitions.declareAll declarations).lookup? name =
      (definitions.lookup? name).or
        (declarations.find? fun declaration => declaration.name == name) := by
  induction declarations generalizing definitions with
  | nil => exact Option.or_none.symm
  | cons declaration declarations induction =>
      refine (@induction (definitions.declare declaration)).trans ?_
      rw [lookup?_declare, Option.or_assoc, List.find?_cons]
      cases declaration.name == name <;> rfl

theorem lookup?_declareAll_empty (declarations : List Declaration) (name : String) :
    (empty.declareAll declarations).lookup? name =
      declarations.find? fun declaration => declaration.name == name :=
  (lookup?_declareAll declarations name).trans Option.none_or

theorem assert_cases (definitions : Definitions) (formula : Formula) :
    (.assert formula ∈ definitions.statements ∧ definitions.assert formula = definitions) ∨
      definitions.assert formula = definitions.append (.assert formula) := by
  by_cases known : formula ∈ definitions.assertions
  · exact .inl ⟨mem_assertions_iff.mp known, by simp [assert, assert?, known]⟩
  · exact .inr (by simp [assert, assert?, known])

theorem extends_assert (formula : Formula) : (definitions.assert formula).Extends definitions := by
  rcases definitions.assert_cases formula with ⟨-, same⟩ | added
  · rw [same]
    exact .refl definitions
  · rw [added]
    exact extends_append _

theorem extends_assertAll (formulas : List Formula) :
    (definitions.assertAll formulas).Extends definitions := by
  induction formulas generalizing definitions with
  | nil => exact .refl definitions
  | cons formula formulas induction => exact induction.trans (extends_assert formula)

/-! ## Building up -/

/-- Statements were added one by one: declarations of new names that might be declared, and formulas that
might be asserted, as the definitions then were. -/
inductive Built (mayDeclare : Definitions → Declaration → Prop)
    (mayAssert : Definitions → Formula → Prop) : Definitions → Prop
  | empty : Built mayDeclare mayAssert empty
  | declare {definitions : Definitions} {declaration : Declaration} :
      Built mayDeclare mayAssert definitions → definitions.lookup? declaration.name = none →
      mayDeclare definitions declaration →
      Built mayDeclare mayAssert (definitions.append (.declare declaration))
  | assert {definitions : Definitions} {formula : Formula} :
      Built mayDeclare mayAssert definitions → mayAssert definitions formula →
      Built mayDeclare mayAssert (definitions.append (.assert formula))

namespace Built

theorem imp {mayDeclare' : Definitions → Declaration → Prop}
    {mayAssert' : Definitions → Formula → Prop} (built : Built mayDeclare mayAssert definitions)
    (declares : ∀ definitions declaration, mayDeclare definitions declaration →
      mayDeclare' definitions declaration)
    (asserts : ∀ definitions formula, mayAssert definitions formula →
      mayAssert' definitions formula) : Built mayDeclare' mayAssert' definitions := by
  induction built with
  | empty => exact .empty
  | declare _ new may induction => exact .declare induction new (declares _ _ may)
  | assert _ may induction => exact .assert induction (asserts _ _ may)

theorem declared (built : Built mayDeclare mayAssert definitions) {declaration : Declaration}
    (may : mayDeclare definitions declaration) :
    Built mayDeclare mayAssert (definitions.declare declaration) := by
  rcases definitions.declare_cases declaration with ⟨-, same⟩ | ⟨new, same⟩
  · rwa [same]
  · rw [same]
    exact .declare built new may

theorem declaredAll (built : Built mayDeclare mayAssert definitions)
    {declarations : List Declaration}
    (may : ∀ declaration ∈ declarations, ∀ later : Definitions, later.Extends definitions →
      mayDeclare later declaration) :
    Built mayDeclare mayAssert (definitions.declareAll declarations) := by
  induction declarations generalizing definitions with
  | nil => exact built
  | cons declaration declarations induction =>
      refine induction (built.declared (may declaration (by simp) definitions (.refl _))) ?_
      intro other listed later extension
      exact may other (by simp [listed]) later (extension.trans (extends_declare declaration))

theorem asserted (built : Built mayDeclare mayAssert definitions) {formula : Formula}
    (may : mayAssert definitions formula) :
    Built mayDeclare mayAssert (definitions.assert formula) := by
  rcases definitions.assert_cases formula with ⟨-, same⟩ | added
  · rwa [same]
  · rw [added]
    exact .assert built may

theorem assertedAll (built : Built mayDeclare mayAssert definitions) {formulas : List Formula}
    (may : ∀ formula ∈ formulas, ∀ later : Definitions, later.Extends definitions →
      mayAssert later formula) :
    Built mayDeclare mayAssert (definitions.assertAll formulas) := by
  induction formulas generalizing definitions with
  | nil => exact built
  | cons formula formulas induction =>
      refine induction (built.asserted (may formula (by simp) definitions (.refl _))) ?_
      intro other listed later extension
      exact may other (by simp [listed]) later (extension.trans (extends_assert formula))

theorem applied (built : Built mayDeclare mayAssert definitions) {translation : Translation}
    (declares : ∀ declaration ∈ translation.declarations, ∀ later : Definitions,
      mayDeclare later declaration)
    (asserts : ∀ formula, translation.assertion? = some formula →
      (definitions.declareAll translation.declarations).accepts formula = true →
      mayAssert (definitions.declareAll translation.declarations) formula) :
    Built mayDeclare mayAssert (definitions.apply translation).1 := by
  have declared : Built mayDeclare mayAssert (definitions.declareAll translation.declarations) :=
    built.declaredAll fun declaration listed later _ => declares declaration listed later
  unfold apply
  dsimp only
  split
  · next next added =>
      obtain ⟨formula, isStated, accepted⟩ := Option.bind_eq_some_iff.mp added
      unfold assertChecked? assert? at accepted
      split at accepted
      · next isAccepted =>
          split at accepted
          · cases accepted
          · cases accepted
            exact .assert declared (asserts formula isStated isAccepted)
      · cases accepted
  · exact declared

/-! ## What was built -/

theorem nodup_names (built : Built mayDeclare mayAssert definitions) :
    (definitions.declarations.map Declaration.name).Nodup := by
  induction built with
  | empty => exact List.nodup_nil
  | @declare definitions declaration _ new _ induction =>
      have outside : declaration.name ∉ definitions.declarations.map Declaration.name := by
        intro member
        obtain ⟨other, listed, same⟩ := List.mem_map.mp member
        exact List.find?_eq_none.mp new other listed (by simp [same])
      rw [declarations_append, List.map_append, List.nodup_append]
      refine ⟨induction, List.nodup_singleton _, fun name earlier other own => ?_⟩
      rw [Statement.declaration?, Option.toList_some, List.map_singleton, List.mem_singleton] at own
      rintro rfl
      exact outside (own ▸ earlier)
  | assert _ _ induction =>
      rw [declarations_append]
      simpa [Statement.declaration?] using induction

/-- What was declared might be declared when it was. -/
theorem exists_mayDeclare (built : Built mayDeclare mayAssert definitions)
    {declaration : Declaration} (declared : .declare declaration ∈ definitions.statements) :
    ∃ before, mayDeclare before declaration := by
  induction built with
  | empty => cases declared
  | declare _ _ may induction =>
      rcases List.mem_append.mp declared with earlier | own
      · exact induction earlier
      · cases List.mem_singleton.mp own
        exact ⟨_, may⟩
  | assert _ _ induction =>
      rcases List.mem_append.mp declared with earlier | own
      · exact induction earlier
      · cases List.mem_singleton.mp own

/-- What was asserted might be asserted over the statements before it. -/
theorem mayAssert_of_split (built : Built mayDeclare mayAssert definitions)
    {before after : List Statement} {formula : Formula}
    (split : definitions.statements = before ++ .assert formula :: after) :
    mayAssert (ofStatements before) formula := by
  -- The formula is the last statement, or stands in the definitions that the last was added to.
  induction built generalizing after with
  | empty => simp [Definitions.empty] at split
  | @declare definitions declaration _ _ _ induction =>
      rcases List.eq_nil_or_concat after with rfl | ⟨front, last, rfl⟩
      · have lasts := (List.append_inj' split rfl).2
        simp at lasts
      · rw [append, List.concat_eq_append, ← List.cons_append, ← List.append_assoc] at split
        exact induction (List.append_inj' split rfl).1
  | @assert definitions own _ may induction =>
      rcases List.eq_nil_or_concat after with rfl | ⟨front, last, rfl⟩
      · obtain ⟨same, lasts⟩ := List.append_inj' split rfl
        cases lasts
        rwa [← same, ofStatements_statements]
      · rw [append, List.concat_eq_append, ← List.cons_append, ← List.append_assoc] at split
        exact induction (List.append_inj' split rfl).1

end Built

end Definitions

/-! ## Forward references -/

namespace Program

/-- The statement of a name to be declared is among these. -/
def Declares (statements : List Statement) (name : String) : Prop :=
  ∃ declaration, .declare declaration ∈ statements ∧ declaration.name = name

/-- Nothing is used before it is declared if each symbol of an assertion is declared among the
statements in front of it. -/
theorem undeclaredUses_eq_nil_iff {declared : List String} {statements : List Statement} :
    undeclaredUses declared statements = [] ↔
      ∀ before formula after, statements = before ++ .assert formula :: after →
        ∀ name ∈ formula.symbols, name ∈ declared ∨ Declares before name := by
  induction statements generalizing declared with
  | nil => simp [undeclaredUses]
  | cons statement statements induction =>
      cases statement with
      | declare declaration =>
          rw [undeclaredUses, induction]
          constructor
          · intro each before formula after split name used
            cases before with
            | nil => cases split
            | cons first before =>
                cases split
                rcases each before formula after rfl name used with known | ⟨other, listed, same⟩
                · rcases List.mem_cons.mp known with rfl | earlier
                  · exact .inr ⟨declaration, by simp, rfl⟩
                  · exact .inl earlier
                · exact .inr ⟨other, List.mem_cons_of_mem _ listed, same⟩
          · rintro each before formula after rfl name used
            rcases each (.declare declaration :: before) formula after rfl name used with
              earlier | ⟨other, listed, same⟩
            · exact .inl (List.mem_cons_of_mem _ earlier)
            · rcases List.mem_cons.mp listed with first | later
              · cases first
                exact .inl (by simp [same])
              · exact .inr ⟨other, later, same⟩
      | assert own =>
          rw [undeclaredUses, List.append_eq_nil_iff, induction, List.filter_eq_nil_iff]
          constructor
          · rintro ⟨ownKnown, each⟩ before formula after split name used
            cases before with
            | nil =>
                cases split
                exact .inl (by simpa using ownKnown name used)
            | cons first before =>
                cases split
                rcases each before formula after rfl name used with known | ⟨other, listed, same⟩
                · exact .inl known
                · exact .inr ⟨other, List.mem_cons_of_mem _ listed, same⟩
          · intro each
            refine ⟨fun name used => ?_, ?_⟩
            · rcases each [] own statements rfl name used with known | ⟨_, listed, _⟩
              · simpa using known
              · cases listed
            · rintro before formula after rfl name used
              rcases each (.assert own :: before) formula after rfl name used with
                known | ⟨other, listed, same⟩
              · exact .inl known
              · exact .inr ⟨other, (List.mem_cons.mp listed).resolve_left nofun, same⟩

end Program

namespace Definitions

/-- Every symbol of the formula is declared. -/
def Covers (definitions : Definitions) (formula : Formula) : Prop :=
  ∀ name ∈ formula.symbolOccurrences, (definitions.lookup? name).isSome = true

theorem declares_of_isSome_lookup? {name : String}
    (found : (definitions.lookup? name).isSome = true) :
    Program.Declares definitions.statements name := by
  obtain ⟨declaration, isFound⟩ := Option.isSome_iff_exists.mp found
  exact ⟨declaration, mem_declarations_iff.mp (List.mem_of_find?_eq_some isFound),
    by simpa using List.find?_some isFound⟩

end Definitions

end Ergo
