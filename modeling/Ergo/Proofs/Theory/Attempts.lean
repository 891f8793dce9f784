import Ergo.Proofs.Formula.Scope
import Ergo.Proofs.Results
import Ergo.Proofs.Theory

/-!
Theories that statements build up when those that are refused are passed over. What is declared stays
declared, so an accepted formula is refused later, or read over other sorts, only because a name that
it binds was not declared when it was accepted and has since become that of a constant or variable of
a sort other than `Object`.
-/

namespace Ergo

namespace Theory

variable {theory later : Theory}

/-- The theory after a statement, which is passed over if it is refused. -/
def attempt (theory : Theory) (statement : Statement) : Theory :=
  (theory.execute statement).toOption.getD theory

def attemptAll (theory : Theory) (statements : List Statement) : Theory :=
  statements.foldl attempt theory

theorem attemptAll_append (theory : Theory) (first second : List Statement) :
    theory.attemptAll (first ++ second) = (theory.attemptAll first).attemptAll second :=
  List.foldl_append

theorem attempt_cases (theory : Theory) (statement : Statement) :
    theory.attempt statement = theory ∨
      theory.execute statement = .ok (theory.attempt statement) := by
  unfold attempt
  cases executed : theory.execute statement with
  | error error => exact .inl rfl
  | ok next => exact .inr rfl

/-! ## What stays declared -/

def Extends (later theory : Theory) : Prop :=
  ∀ name declaration, theory.lookup? name = some declaration →
    later.lookup? name = some declaration

theorem Extends.refl (theory : Theory) : theory.Extends theory :=
  fun _ _ found => found

theorem Extends.trans {last : Theory} (lastExtends : last.Extends later)
    (laterExtends : later.Extends theory) : last.Extends theory :=
  fun name declaration found => lastExtends name declaration (laterExtends name declaration found)

theorem extends_addSymbol (declaration : Declaration) :
    (theory.addSymbol declaration).Extends theory := by
  unfold addSymbol
  split
  · exact .refl theory
  · intro name declaration found
    rw [lookup?] at found ⊢
    rw [List.find?_append, found]
    rfl

theorem extends_execute {statement : Statement} (executed : theory.execute statement = .ok later) :
    later.Extends theory := by
  cases statement with
  | declare declaration =>
      rcases declare_cases executed with ⟨sorts, rfl⟩ | rfl
      · exact fun _ _ found => found
      · exact extends_addSymbol declaration
  | assert formula =>
      obtain ⟨-, rfl⟩ := execute_assert_eq executed
      exact fun _ _ found => found

theorem extends_attempt (theory : Theory) (statement : Statement) :
    (theory.attempt statement).Extends theory := by
  rcases attempt_cases theory statement with passedOver | executed
  · rw [passedOver]
    exact .refl theory
  · exact extends_execute executed

theorem extends_attemptAll (theory : Theory) (statements : List Statement) :
    (theory.attemptAll statements).Extends theory := by
  induction statements generalizing theory with
  | nil => exact .refl theory
  | cons statement statements induction =>
      exact (induction (theory.attempt statement)).trans (extends_attempt theory statement)

theorem Extends.nameSort? (extension : later.Extends theory) {name sortName : String}
    (isSorted : theory.nameSort? name = some sortName) :
    later.nameSort? name = some sortName := by
  obtain ⟨declaration, found, declarationSort⟩ := Option.bind_eq_some_iff.mp isSorted
  exact Option.bind_eq_some_iff.mpr ⟨declaration, extension name declaration found, declarationSort⟩

theorem Extends.domain? (extension : later.Extends theory) {name : String} {domain : List String}
    (isApplied : theory.domain? name = some domain) : later.domain? name = some domain := by
  obtain ⟨declaration, found, declarationDomain⟩ := Option.bind_eq_some_iff.mp isApplied
  exact Option.bind_eq_some_iff.mpr
    ⟨declaration, extension name declaration found, declarationDomain⟩

theorem Extends.symbolNames_subset (extension : later.Extends theory) :
    theory.symbolNames ⊆ later.symbolNames := by
  intro name member
  obtain ⟨declaration, found⟩ := mem_symbolNames_iff.mp member
  exact mem_symbolNames_iff.mpr ⟨declaration, extension name declaration found⟩

/-! ## Accepted formulas -/

section Checks

variable {bound : BoundSorts}

/-- The sort that an enclosing quantifier gives a term. -/
def boundSort? (bound : BoundSorts) : Term → Option String
  | .constant _ => none
  | .var name => bound.lookup name

theorem termSort_eq_ok_iff {term : Term} {sortName : String} :
    theory.termSort bound term = .ok sortName ↔
      (boundSort? bound term).or (theory.nameSort? term.name) = some sortName := by
  cases term with
  | constant name =>
      cases isSorted : theory.nameSort? name <;>
        simp [Theory.termSort, boundSort?, Term.name, isSorted]
  | var name =>
      cases found : bound.lookup name <;> cases isSorted : theory.nameSort? name <;>
        simp [Theory.termSort, boundSort?, Term.name, isSorted, found]

theorem Extends.termSort (extension : later.Extends theory) {term : Term} {sortName : String}
    (accepted : theory.termSort bound term = .ok sortName) :
    later.termSort bound term = .ok sortName := by
  rw [termSort_eq_ok_iff, Option.or_eq_some_iff] at accepted ⊢
  rcases accepted with isBound | ⟨isFree, isSorted⟩
  · exact .inl isBound
  · exact .inr ⟨isFree, extension.nameSort? isSorted⟩

theorem checkArguments_eq_ok_iff {predicate : String} {index : Nat} {arguments : List Term}
    {domain : List String} (sameLength : domain.length = arguments.length) :
    theory.checkArguments bound predicate index arguments domain = .ok () ↔
      List.Forall₂ (fun argument expected => theory.termSort bound argument = .ok expected)
        arguments domain := by
  induction arguments generalizing index domain with
  | nil =>
      cases List.length_eq_zero_iff.mp sameLength
      exact iff_of_true rfl .nil
  | cons argument arguments induction =>
      cases domain with
      | nil => cases sameLength
      | cons expected domain =>
          rw [checkArguments, bind_eq_ok_iff, List.forall₂_cons]
          constructor
          · rintro ⟨actual, argumentSort, checked⟩
            split at checked
            · next same =>
                rw [argumentSort, eq_of_beq same]
                exact ⟨rfl, (induction (Nat.succ.inj sameLength)).mp checked⟩
            · cases checked
          · rintro ⟨argumentSort, later⟩
            refine ⟨expected, argumentSort, ?_⟩
            rw [if_pos (beq_self_eq_true expected)]
            exact (induction (Nat.succ.inj sameLength)).mpr later

theorem checkAtom_eq_ok_iff {predicate : String} {arguments : List Term} :
    theory.checkAtom bound predicate arguments = .ok () ↔
      ∃ domain, theory.domain? predicate = some domain ∧
        List.Forall₂ (fun argument expected => theory.termSort bound argument = .ok expected)
          arguments domain := by
  rw [checkAtom]
  cases theory.domain? predicate with
  | none => simp
  | some domain =>
      simp only [Option.some.injEq, exists_eq_left']
      split
      · next sameLength => exact checkArguments_eq_ok_iff (eq_of_beq sameLength)
      · next otherLength =>
          refine iff_of_false (by simp) fun sorted => otherLength ?_
          rw [sorted.length_eq, beq_self_eq_true]

theorem Extends.checkAtom (extension : later.Extends theory) {predicate : String}
    {arguments : List Term} (accepted : theory.checkAtom bound predicate arguments = .ok ()) :
    later.checkAtom bound predicate arguments = .ok () := by
  rw [checkAtom_eq_ok_iff] at accepted ⊢
  obtain ⟨domain, isApplied, sorted⟩ := accepted
  exact ⟨domain, extension.domain? isApplied, sorted.imp fun _ _ => extension.termSort⟩

theorem Extends.checkEqual (extension : later.Extends theory) {left right : Term}
    (accepted : theory.checkEqual bound left right = .ok ()) :
    later.checkEqual bound left right = .ok () := by
  simp only [Theory.checkEqual, bind_eq_ok_iff] at accepted ⊢
  obtain ⟨expected, leftSort, actual, rightSort, same⟩ := accepted
  exact ⟨expected, extension.termSort leftSort, actual, extension.termSort rightSort, same⟩

theorem bindSorts_congr {binders : List String}
    (sameSorts : ∀ name ∈ binders, later.variableSort name = theory.variableSort name) :
    later.bindSorts binders = theory.bindSorts binders := by
  unfold bindSorts
  rw [List.map_congr_left fun name member => by rw [sameSorts name member]]

theorem checkFormulas_eq_ok_iff {parts : List Formula} :
    theory.checkFormulas bound parts = .ok () ↔
      ∀ part ∈ parts, theory.checkFormula bound part = .ok () := by
  constructor
  · exact Formula.checkFormulas_ok
  · intro each
    induction parts with
    | nil => rfl
    | cons part parts induction =>
        rw [checkFormulas, bind_eq_ok_iff]
        exact ⟨(), each part (by simp), induction fun other member => each other (by simp [member])⟩

theorem Extends.checkFormula (extension : later.Extends theory) {formula : Formula}
    (sameSorts : ∀ name ∈ formula.binderOccurrences,
      later.variableSort name = theory.variableSort name)
    (accepted : theory.checkFormula bound formula = .ok ()) :
    later.checkFormula bound formula = .ok () := by
  induction formula generalizing bound with
  | truth => rfl
  | falsity => rfl
  | atom predicate arguments => exact extension.checkAtom accepted
  | equal left right => exact extension.checkEqual accepted
  | not operand induction => exact induction sameSorts accepted
  | and parts induction =>
      simp only [Formula.binderOccurrences, Formula.partsBinderOccurrences_eq_flatMap,
        List.mem_flatMap] at sameSorts
      rw [Theory.checkFormula, checkFormulas_eq_ok_iff] at accepted ⊢
      exact fun part member => induction part member
        (fun name inside => sameSorts name ⟨part, member, inside⟩) (accepted part member)
  | or parts induction =>
      simp only [Formula.binderOccurrences, Formula.partsBinderOccurrences_eq_flatMap,
        List.mem_flatMap] at sameSorts
      rw [Theory.checkFormula, checkFormulas_eq_ok_iff] at accepted ⊢
      exact fun part member => induction part member
        (fun name inside => sameSorts name ⟨part, member, inside⟩) (accepted part member)
  | implies premise consequent premiseInduction consequentInduction =>
      obtain ⟨premiseSorts, consequentSorts⟩ := List.forall_mem_append.mp sameSorts
      rw [Theory.checkFormula, bind_eq_ok_iff] at accepted ⊢
      obtain ⟨_, premiseAccepted, consequentAccepted⟩ := accepted
      exact ⟨(), premiseInduction premiseSorts premiseAccepted,
        consequentInduction consequentSorts consequentAccepted⟩
  | forAll binders body induction =>
      obtain ⟨ownSorts, innerSorts⟩ := List.forall_mem_append.mp sameSorts
      rw [Theory.checkFormula] at accepted ⊢
      rw [bindSorts_congr ownSorts]
      exact induction innerSorts accepted
  | forSome binders body induction =>
      obtain ⟨ownSorts, innerSorts⟩ := List.forall_mem_append.mp sameSorts
      rw [Theory.checkFormula] at accepted ⊢
      rw [bindSorts_congr ownSorts]
      exact induction innerSorts accepted

end Checks

/-! ## Stored assertions -/

/-- The later theory still accepts the formula, and its quantifiers range over the same sorts. -/
def KeepsSorts (theory later : Theory) (formula : Formula) : Prop :=
  later.check formula = .ok () ∧
    ∀ name ∈ formula.binderOccurrences, later.variableSort name = theory.variableSort name

theorem Extends.variableSort_eq_iff (extension : later.Extends theory) (name : String) :
    later.variableSort name = theory.variableSort name ↔
      (theory.lookup? name = none →
        ∀ sortName, later.nameSort? name = some sortName → sortName = objectSort) := by
  cases found : theory.lookup? name with
  | some declaration =>
      have foundLater := extension name declaration found
      simp [variableSort, Theory.nameSort?, found, foundLater]
  | none =>
      have isObject : theory.variableSort name = objectSort := by
        simp [variableSort, Theory.nameSort?, found]
      rw [isObject, variableSort]
      cases isSorted : later.nameSort? name <;> simp

theorem Extends.keepsSorts_iff (extension : later.Extends theory) {formula : Formula}
    (accepted : theory.check formula = .ok ()) :
    theory.KeepsSorts later formula ↔
      ∀ name ∈ formula.binderOccurrences, theory.lookup? name = none →
        ∀ sortName, later.nameSort? name = some sortName → sortName = objectSort := by
  constructor
  · rintro ⟨-, sameSorts⟩ name occurs
    exact (extension.variableSort_eq_iff name).mp (sameSorts name occurs)
  · intro declaredOverObjects
    have sameSorts : ∀ name ∈ formula.binderOccurrences,
        later.variableSort name = theory.variableSort name :=
      fun name occurs => (extension.variableSort_eq_iff name).mpr (declaredOverObjects name occurs)
    exact ⟨extension.checkFormula sameSorts accepted, sameSorts⟩

theorem mem_assertions_attempt {statement : Statement} {formula : Formula}
    (stored : formula ∈ (theory.attempt statement).assertions) :
    formula ∈ theory.assertions ∨
      statement = .assert formula ∧ theory.check formula = .ok () := by
  rcases attempt_cases theory statement with passedOver | executed
  · rw [passedOver] at stored
    exact .inl stored
  · rw [execute_assertions executed, List.mem_append, Option.mem_toList] at stored
    rcases stored with earlier | own
    · exact .inl earlier
    · cases statement with
      | declare declaration => simp [Statement.assertion?] at own
      | assert asserted =>
          obtain rfl : asserted = formula := by simpa [Statement.assertion?] using own
          exact .inr ⟨rfl, (execute_assert_eq executed).1⟩

/-- A stored assertion was accepted by the theory of the statements before it. -/
theorem exists_accepting {statements : List Statement} {formula : Formula}
    (stored : formula ∈ (theory.attemptAll statements).assertions) :
    formula ∈ theory.assertions ∨ ∃ before after, statements = before ++ .assert formula :: after ∧
      (theory.attemptAll before).check formula = .ok () := by
  induction statements generalizing theory with
  | nil => exact .inl stored
  | cons statement statements induction =>
      rcases induction stored with earlier | ⟨before, after, rfl, accepted⟩
      · rcases mem_assertions_attempt earlier with first | ⟨rfl, accepted⟩
        · exact .inl first
        · exact .inr ⟨[], statements, rfl, accepted⟩
      · exact .inr ⟨statement :: before, after, rfl, accepted⟩

/-- Every stored assertion was accepted at its place, and from each such place on it is accepted over
the same sorts, unless a name that it binds was not declared there and has become that of a constant
or variable of another sort than `Object`. -/
theorem keepsSorts_attemptAll (statements : List Statement) :
    (∀ formula ∈ (empty.attemptAll statements).assertions,
      ∃ before after, statements = before ++ .assert formula :: after ∧
        (empty.attemptAll before).check formula = .ok ()) ∧
    ∀ before formula after, statements = before ++ .assert formula :: after →
      (empty.attemptAll before).check formula = .ok () →
      ((empty.attemptAll before).KeepsSorts (empty.attemptAll statements) formula ↔
        ∀ name ∈ formula.binderOccurrences, (empty.attemptAll before).lookup? name = none →
          ∀ sortName, (empty.attemptAll statements).nameSort? name = some sortName →
            sortName = objectSort) := by
  constructor
  · intro formula stored
    rcases exists_accepting stored with atStart | accepted
    · exact absurd atStart List.not_mem_nil
    · exact accepted
  · rintro before formula after rfl accepted
    have extension : (empty.attemptAll (before ++ .assert formula :: after)).Extends
        (empty.attemptAll before) := by
      rw [attemptAll_append]
      exact extends_attemptAll _ _
    exact extension.keepsSorts_iff accepted

/-! ## Variables that are declared late -/

/-- The variable is declared over objects after it was bound, and is not declared again. -/
def lateObject : List Statement :=
  [.declare (.predicate "P" [objectSort]), .assert (.forAll ["x"] (.atom "P" [.var "x"])),
    .declare (.constant "s" "S"), .declare (.var "x" objectSort), .declare (.sort "S"),
    .declare (.var "x" "S"), .assert (.atom "P" [.constant "s"])]

theorem lateObject_keepsSorts :
    (empty.attemptAll (lateObject.take 1)).check (.forAll ["x"] (.atom "P" [.var "x"])) = .ok () ∧
      (empty.attemptAll (lateObject.take 1)).KeepsSorts (empty.attemptAll lateObject)
        (.forAll ["x"] (.atom "P" [.var "x"])) := by
  have accepted : (empty.attemptAll (lateObject.take 1)).check
      (.forAll ["x"] (.atom "P" [.var "x"])) = .ok () := by
    decide
  refine ⟨accepted, ((keepsSorts_attemptAll lateObject).2 _ _ (lateObject.drop 2) rfl accepted).mpr ?_⟩
  intro name occurs _ sortName isSorted
  obtain rfl : name = "x" := by simpa [Formula.binderOccurrences] using occurs
  have overObjects : (empty.attemptAll lateObject).nameSort? "x" = some objectSort := by decide
  exact Option.some.inj (isSorted.symm.trans overObjects)

/-- The variable is declared over another sort than it was read over. -/
def lateVariable : List Statement :=
  [.declare (.predicate "P" [objectSort]), .declare (.constant "a" objectSort),
    .assert (.forAll ["x"] (.atom "P" [.var "x"])), .declare (.sort "S"), .declare (.var "x" "S")]

/-- Not every stored assertion is still accepted over the sorts it was accepted over. -/
theorem not_keepsSorts :
    ¬ ∀ statements, ∀ formula ∈ (empty.attemptAll statements).assertions,
        ∃ before after, statements = before ++ .assert formula :: after ∧
          (empty.attemptAll before).check formula = .ok () ∧
          (empty.attemptAll before).KeepsSorts (empty.attemptAll statements) formula := by
  intro claimed
  obtain ⟨_, _, _, _, accepted, _⟩ :=
    claimed lateVariable (.forAll ["x"] (.atom "P" [.var "x"])) (by decide)
  have refused : (empty.attemptAll lateVariable).check (.forAll ["x"] (.atom "P" [.var "x"])) ≠
      .ok () := by
    decide
  exact refused accepted

end Theory

end Ergo
