import Ergo.Proofs.Constraint.Solver
import Ergo.Session.Basic
import Mathlib.Data.Finset.Card

/-!
What a session has accepted. The constraints and variables that it holds are those of the texts in
its log. What it asks of a solver is well posed, so that a solver that keeps its promises tells whether
real numbers satisfy every text, and which.
-/

namespace Ergo

/-! ## Texts of constraints -/

namespace Constraint

/-- Whether a text holds constraints that are all true under an assignment. -/
def TextIsTrue (assignment : String → ℝ) (text : String) : Prop :=
  ∃ constraints, parseList text = .ok constraints ∧
    ∀ constraint ∈ constraints, constraint.IsTrue assignment

/-- The variables in the constraints of a text, each as often as it occurs. -/
def textVariables (text : String) : List String :=
  match parseList text with
  | .ok constraints => constraints.flatMap variableOccurrences
  | .error _ => []

theorem mem_textVariables_iff {text name : String} :
    name ∈ textVariables text ↔
      ∃ constraints, parseList text = .ok constraints ∧
        ∃ constraint ∈ constraints, name ∈ constraint.variableOccurrences := by
  unfold textVariables
  split
  · next constraints read => simp [read]
  · next read => simp [read]

end Constraint

namespace Accepted

/-- States that come from the empty one by accepting texts. -/
inductive FromTexts : Accepted → Prop
  | empty : FromTexts .empty
  | extend {accepted : Accepted} {text : String} {constraints : List Constraint}
      (fromTexts : FromTexts accepted) (filled : (Text.trimChars text.toList).isEmpty = false)
      (read : Constraint.parseList text = .ok constraints) :
      FromTexts (accepted.extend text constraints)

namespace FromTexts

variable {accepted : Accepted}

theorem exists_read (fromTexts : accepted.FromTexts) :
    ∀ text ∈ accepted.log, ∃ constraints, Constraint.parseList text = .ok constraints := by
  induction fromTexts with
  | empty => simp [Accepted.empty]
  | extend _ _ read induction =>
      rw [Accepted.extend, List.forall_mem_append]
      exact ⟨induction, by simpa using ⟨_, read⟩⟩

theorem mem_constraints_iff (fromTexts : accepted.FromTexts) {constraint : Constraint} :
    constraint ∈ accepted.constraints ↔
      ∃ text ∈ accepted.log, ∃ constraints, Constraint.parseList text = .ok constraints ∧
        constraint ∈ constraints := by
  induction fromTexts with
  | empty => simp [Accepted.empty]
  | extend _ _ read induction =>
      simp only [Accepted.extend, List.mem_append, List.mem_singleton, induction, or_and_right,
        exists_or, exists_eq_left, read, Except.ok.injEq, exists_eq_left']

theorem mem_unknowns_iff (fromTexts : accepted.FromTexts) {name : String} :
    name ∈ accepted.unknowns ↔
      ∃ constraint ∈ accepted.constraints, name ∈ constraint.variableOccurrences := by
  induction fromTexts with
  | empty => simp [Accepted.empty]
  | extend _ _ _ induction =>
      simp [Accepted.extend, induction, or_and_right, exists_or, Constraint.unknowns,
        ← NameSet.mem_iff_mem_names]

theorem linearIn (fromTexts : accepted.FromTexts) :
    ∀ constraint ∈ accepted.constraints, constraint.LinearIn accepted.unknowns.names := by
  intro constraint member quantity compared
  obtain ⟨text, -, constraints, read, listed⟩ := fromTexts.mem_constraints_iff.mp member
  obtain ⟨source, quantityRead⟩ := Constraint.quantities_of_parseList read listed quantity compared
  refine ⟨(Quantity.wellFormed_of_ofExpression quantityRead).isAffine, fun name occurs => ?_⟩
  rw [← NameSet.mem_iff_mem_names, fromTexts.mem_unknowns_iff]
  refine ⟨constraint, member, ?_⟩
  rw [Constraint.variableOccurrences_eq_flatMap]
  exact List.mem_flatMap_of_mem compared occurs

theorem allTrue_iff (fromTexts : accepted.FromTexts) (assignment : String → ℝ) :
    (∀ constraint ∈ accepted.constraints, constraint.IsTrue assignment) ↔
      ∀ text ∈ accepted.log, Constraint.TextIsTrue assignment text := by
  constructor
  · intro allTrue text logged
    obtain ⟨constraints, read⟩ := fromTexts.exists_read text logged
    exact ⟨constraints, read, fun constraint member =>
      allTrue constraint (fromTexts.mem_constraints_iff.mpr ⟨text, logged, _, read, member⟩)⟩
  · intro textsTrue constraint member
    obtain ⟨text, logged, constraints, read, listed⟩ := fromTexts.mem_constraints_iff.mp member
    obtain ⟨others, otherRead, allTrue⟩ := textsTrue text logged
    obtain rfl : constraints = others := by simpa [read] using otherRead
    exact allTrue constraint listed

theorem size_unknowns (fromTexts : accepted.FromTexts) :
    accepted.unknowns.size =
      (accepted.log.flatMap Constraint.textVariables).toFinset.card := by
  rw [NameSet.size, ← List.toFinset_card_of_nodup accepted.unknowns.nodup]
  congr 1
  ext name
  simp only [List.mem_toFinset, ← NameSet.mem_iff_mem_names, fromTexts.mem_unknowns_iff,
    fromTexts.mem_constraints_iff, List.mem_flatMap, Constraint.mem_textVariables_iff]
  tauto

theorem wellPosed (fromTexts : accepted.FromTexts) :
    Constraint.WellPosed accepted.unknowns.names accepted.constraints :=
  ⟨accepted.unknowns.nodup, fromTexts.linearIn⟩

theorem verdict_ne_unknown (fromTexts : accepted.FromTexts) {solver : Constraint.Solver}
    (decides : solver.Decides) : accepted.verdict solver ≠ .unknown := by
  rw [verdict, Ne, Verdict.map_eq_unknown_iff]
  exact (decides _ _ fromTexts.wellPosed).1

theorem satisfiable_iff (fromTexts : accepted.FromTexts) {solver : Constraint.Solver}
    (decides : solver.Decides) :
    (accepted.verdict solver).model?.isSome = true ↔
      ∃ assignment : String → ℝ, ∀ text ∈ accepted.log,
        Constraint.TextIsTrue assignment text := by
  rw [Verdict.isSome_model?_iff (fromTexts.verdict_ne_unknown decides), verdict, Ne,
    Verdict.map_eq_unsatisfiable_iff, (decides _ _ fromTexts.wellPosed).2, not_not,
    Constraint.Satisfiable]
  simp only [fromTexts.allTrue_iff]

theorem exists_extension (fromTexts : accepted.FromTexts) {solver : Constraint.Solver}
    (reports : solver.ReportsSolutions) {values : List (String × Rat)}
    (found : accepted.verdict solver = .satisfiable values) :
    ∃ assignment : String → ℝ, (∀ entry ∈ values, assignment entry.1 = entry.2) ∧
      ∀ text ∈ accepted.log, Constraint.TextIsTrue assignment text := by
  obtain ⟨model, answered, rfl⟩ := Verdict.map_eq_satisfiable_iff.mp found
  obtain ⟨assignment, allTrue, agrees⟩ := reports _ _ model fromTexts.wellPosed answered
  refine ⟨assignment, fun entry member => ?_, (fromTexts.allTrue_iff _).mp allTrue⟩
  obtain ⟨name, listed, shown⟩ := List.mem_filterMap.mp member
  obtain ⟨value, assigned, rfl⟩ := Option.map_eq_some_iff.mp shown
  exact agrees name listed value (.inl assigned)

end FromTexts

end Accepted

end Ergo
