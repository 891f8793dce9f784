import Ergo.Proofs.Ground.Formula
import Ergo.Proofs.Refutation.Domains

/-!
A conclusion that is proven follows. If a structure made the assertions true and the conclusion false,
the ground goals would be true in it once the new constants and the witnesses are read suitably
(`Accepted.exists_reads`, `holds_groundGoal`), and a sound solver would not deny them a model.
-/

namespace Ergo

universe u

open Structure Ground

variable {theory : Theory} {conclusion : Formula} {model : Structure.{u}}
  {reading : model.Reading}

/-! ## Goals -/

namespace Refutation

def formulasOf (theory : Theory) (conclusion : Formula) : List Formula :=
  (theory.assertions ++ [Formula.not conclusion]).map Formula.negationNormal

def introducedFor (theory : Theory) (conclusion : Formula) : List SkolemConstant :=
  (Formula.skolemizeAll (skolemName theory) (formulasOf theory conclusion)).2

theorem skolemName_fresh (theory : Theory) :
    SkolemNaming.Fresh (skolemName theory) theory.symbolNames :=
  fun _ _ => freshName_not_mem _ _

theorem isNormal_of_mem_formulasOf {formula : Formula}
    (member : formula ∈ formulasOf theory conclusion) : formula.IsNormal := by
  obtain ⟨before, _, rfl⟩ := List.mem_map.mp member
  exact Formula.isNormal_normal before false

theorem isNormal_of_mem_goals {goal : Formula}
    (member : goal ∈ (Refutation.of theory conclusion).goals) : goal.IsNormal :=
  Formula.isNormal_skolemizeAll (fun _ => isNormal_of_mem_formulasOf) goal member

theorem holds_formulasOf_iff :
    (∀ formula ∈ formulasOf theory conclusion,
        Satisfies theory.variableSort reading formula) ↔
      (∀ assertion ∈ theory.assertions, Satisfies theory.variableSort reading assertion) ∧
        ¬ Satisfies theory.variableSort reading conclusion := by
  simp only [formulasOf, List.forall_mem_map, satisfies_negationNormal, List.mem_append,
    List.mem_singleton, or_imp, forall_and, forall_eq]
  rfl

/-- The theory's assertions and the conclusion are over its names. -/
structure Accepted (theory : Theory) (conclusion : Formula) : Prop where
  distinct : theory.Distinct
  assertions : ∀ assertion ∈ theory.assertions, assertion.WellSorted theory.sorting []
  conclusion : conclusion.WellSorted theory.sorting []

theorem Accepted.wellSorted (accepted : Accepted theory conclusion) {formula : Formula}
    (member : formula ∈ formulasOf theory conclusion) : formula.WellSorted theory.sorting [] := by
  obtain ⟨before, listed, rfl⟩ := List.mem_map.mp member
  apply Formula.WellSorted.normal
  rcases List.mem_append.mp listed with isAssertion | isConclusion
  · exact accepted.assertions before isAssertion
  · rw [List.mem_singleton.mp isConclusion]
    exact .not accepted.conclusion

theorem Accepted.names (accepted : Accepted theory conclusion) {formula : Formula}
    (member : formula ∈ formulasOf theory conclusion) :
    formula.groundNameOccurrences [] ⊆ theory.symbolNames := by
  intro name occurs
  have isSorted := (accepted.wellSorted member).sort?_isSome occurs
  obtain ⟨sortName, found⟩ := Option.isSome_iff_exists.mp isSorted
  exact Theory.mem_symbolNames_of_nameSort? found

/-- The new constants and the witnesses can be read in their sorts, and such that the goals are true
if the assertions are and the conclusion is false. -/
theorem Accepted.exists_reads (accepted : Accepted theory conclusion)
    (reads : theory.Reads reading) :
    ∃ other : model.Reading, theory.Reads other ∧
      (Refutation.of theory conclusion).domains.Reads other ∧
      ((∀ assertion ∈ theory.assertions, Satisfies theory.variableSort reading assertion) →
        ¬ Satisfies theory.variableSort reading conclusion →
        ∀ goal ∈ (Refutation.of theory conclusion).goals,
          Satisfies theory.variableSort other goal) := by
  have keepsReads : ∀ {first second : model.Reading}, AgreeOn theory.symbolNames first second →
      theory.Reads first → theory.Reads second := by
    intro first second agree firstReads name sortName declared
    rw [← agree name (Theory.mem_symbolNames_of_nameSort? declared)]
    exact firstReads name sortName declared
  obtain ⟨middle, kept, ranges, goalsHold⟩ := exists_realizes_skolemizeAll
    (exists_sorted model theory.variableSort) (skolemName_fresh theory)
    (fun _ => accepted.names) reading
  have middleReads := keepsReads kept reads
  obtain ⟨other, agree, otherReads⟩ :=
    exists_reading_domainsOf accepted.distinct (Refutation.of theory conclusion).goals
      middleReads ranges
  refine ⟨other, keepsReads (agree.mono ?_) middleReads, otherReads, fun holds fails => ?_⟩
  · exact List.subset_append_left _ _
  · exact goalsHold (holds_formulasOf_iff.mpr ⟨holds, fails⟩) other agree

/-! ## Ground goals -/

theorem mem_groundGoals {refutation : Refutation} {limit : Nat} {groundGoal : GroundGoal}
    (member : groundGoal ∈ refutation.groundGoals limit) :
    ∃ goal ∈ refutation.goals,
      (∃ expansion, groundGoal = .expanded expansion ∧
        goal.Expands refutation.domains refutation.sortOf [] expansion) ∨
      groundGoal = .quantified goal := by
  obtain ⟨goal, listed, rfl⟩ := List.mem_map.mp member
  refine ⟨goal, listed, ?_⟩
  cases expanded : goal.expand refutation.domains refutation.sortOf limit with
  | none => exact .inr rfl
  | some expansion =>
      exact .inl ⟨expansion, rfl, Formula.expands_of_expand expanded⟩

/-- A ground goal is true where the goals are and the names of the domains have their sorts. -/
theorem holds_groundGoal (reads : (Refutation.of theory conclusion).domains.Reads reading)
    (holds : ∀ goal ∈ (Refutation.of theory conclusion).goals,
      Satisfies theory.variableSort reading goal) {limit : Nat} {groundGoal : GroundGoal}
    (member : groundGoal ∈ (Refutation.of theory conclusion).groundGoals limit) :
    Satisfies theory.variableSort reading groundGoal.formula := by
  obtain ⟨goal, listed, ⟨expansion, rfl, expands⟩ | rfl⟩ := mem_groundGoals member
  · refine holds_expansion (isNormal_of_mem_goals listed) expands .nil ?_ (holds goal listed)
    intro binder name inDomain
    exact reads _ name (Domains.mem_domain.mp inDomain)
  · exact holds goal listed

/-- What the solver is asked about. -/
def groundFormulas (theory : Theory) (conclusion : Formula) (limit : Nat) : List Formula :=
  ((Refutation.of theory conclusion).groundGoals limit).map GroundGoal.formula

theorem fulfills_groundFormulas (reads : (Refutation.of theory conclusion).domains.Reads reading)
    (holds : ∀ goal ∈ (Refutation.of theory conclusion).goals,
      Satisfies theory.variableSort reading goal) (limit : Nat) :
    Fulfills (valuation reading) (groundFormulas theory conclusion limit) :=
  fulfills_valuation (List.forall_mem_map.mpr fun _ => holds_groundGoal reads holds)

/-- A structure in which the assertions are true and the conclusion is false fulfills what the
solver is asked about. -/
theorem Accepted.entails_of_not_satisfiable (accepted : Accepted theory conclusion) {limit : Nat}
    (none : ¬ Satisfiable (groundFormulas theory conclusion limit)) :
    theory.Entails.{u} conclusion := by
  intro model reading reads assertions
  by_contra fails
  obtain ⟨other, _, otherReads, goalsHold⟩ := accepted.exists_reads reads
  exact none ⟨_, fulfills_groundFormulas otherReads (goalsHold assertions fails) limit⟩

section Outcomes

variable {solver : Solver} {constants : List String} {goals : List GroundGoal}

theorem outcomeOf_eq_proven_iff :
    outcomeOf solver constants goals = .proven ↔
      solver (goals.map GroundGoal.formula) = .unsatisfiable := by
  rw [outcomeOf]
  cases solver (goals.map GroundGoal.formula) <;> simp

end Outcomes

end Refutation

/-! ## Programs -/

namespace Program

variable {program : Program} {solver : Ground.Solver} {limit : Nat}

theorem of_prove_eq_ok {outcome : Outcome}
    (executed : Theory.empty.executeAll program.statements = .ok theory)
    (proved : program.prove solver limit = .ok outcome) :
    theory.check program.conclusion = .ok () ∧
      outcome = Refutation.outcomeOf solver (theory.constants.map Prod.snd)
        ((Refutation.of theory program.conclusion).groundGoals limit) := by
  simp only [prove, executed, Theory.prove] at proved
  cases checked : theory.check program.conclusion with
  | error error => simp [checked, bind, Except.bind] at proved
  | ok _ =>
      simp only [checked, bind, Except.bind, pure, Except.pure, Except.ok.injEq] at proved
      exact ⟨rfl, proved.symm⟩

theorem DeclaresFirst.accepted (declaresFirst : program.DeclaresFirst)
    (executed : Theory.empty.executeAll program.statements = .ok theory)
    (checked : theory.check program.conclusion = .ok ()) :
    Refutation.Accepted theory program.conclusion where
  distinct := theory_distinct executed
  assertions := by
    rw [theory_assertions executed]
    exact declaresFirst.wellSorted executed
  conclusion := Formula.wellSorted_of_check checked

/-- A conclusion that is proven by a sound solver is true in every structure in which the assertions
are, whatever the sorts contain, with the declared constants and variables read in their sorts. -/
theorem conclusion_of_proven (sound : solver.Sound) (declaresFirst : program.DeclaresFirst)
    (executed : Theory.empty.executeAll program.statements = .ok theory)
    (proven : program.prove solver limit = .ok .proven) (reads : theory.Reads reading)
    (assertions : ∀ assertion ∈ program.assertions,
      Satisfies theory.variableSort reading assertion) :
    Satisfies theory.variableSort reading program.conclusion := by
  obtain ⟨checked, isProven⟩ := of_prove_eq_ok executed proven
  have accepted := declaresFirst.accepted executed checked
  have unsatisfiable := Refutation.outcomeOf_eq_proven_iff.mp isProven.symm
  rw [← theory_assertions executed] at assertions
  exact accepted.entails_of_not_satisfiable (sound _ unsatisfiable) model reading reads assertions

def socrates : Program :=
  { statements :=
      [.declare (.constant "socrates" objectSort),
        .declare (.predicate "Human" [objectSort]),
        .declare (.predicate "Mortal" [objectSort]),
        .assert (.forAll ["x"]
          (.implies (.atom "Human" [.var "x"]) (.atom "Mortal" [.var "x"]))),
        .assert (.atom "Human" [.constant "socrates"])]
    conclusion := .atom "Mortal" [.constant "socrates"] }

def socratesTheory : Theory :=
  { sorts := { names := [objectSort] }
    symbols := socrates.declarations
    assertions := socrates.assertions }

/-- A structure with one member of each sort, of which everything holds. -/
def universal : Structure :=
  { carrier := fun _ => Unit
    inhabited := fun _ => ⟨()⟩
    relation := fun _ _ => True }

theorem socrates_is_mortal :
    Satisfies socratesTheory.variableSort
      (fun _ => ⟨objectSort, ()⟩ : universal.Reading) socrates.conclusion := by
  have declaresFirst : socrates.DeclaresFirst := rfl
  have executed : Theory.empty.executeAll socrates.statements = .ok socratesTheory := rfl
  have proven : socrates.prove .search 16 = .ok .proven := by decide +kernel
  have reads : socratesTheory.Reads (fun _ => ⟨objectSort, ()⟩ : universal.Reading) := by
    intro name sortName declared
    obtain ⟨declaration, found, isSorted⟩ := Option.bind_eq_some_iff.mp declared
    have listed : declaration ∈ socrates.declarations := List.mem_of_find?_eq_some found
    simp only [socrates, declarations, Statement.declaration?, List.filterMap_cons,
      List.filterMap_nil, List.mem_cons, List.not_mem_nil, or_false] at listed
    rcases listed with rfl | rfl | rfl
    · simpa [Declaration.sort?] using isSorted
    · simp [Declaration.sort?] at isSorted
    · simp [Declaration.sort?] at isSorted
  apply conclusion_of_proven Ground.Solver.search_sound declaresFirst executed proven reads
  intro assertion member
  simp only [socrates, assertions, Statement.assertion?, List.filterMap_cons,
    List.filterMap_nil, List.mem_cons, List.not_mem_nil, or_false] at member
  rcases member with rfl | rfl
  · exact fun _ _ _ => trivial
  · trivial

end Program

end Ergo
