import Ergo.Constraint.Equation
import Ergo.Proofs.Session.Runs

/-!
A system that is solved at once and the session that it is added to agree: they refuse the same texts
for the same reasons, come to the same verdict, and give values to the same variables in one order.
-/

namespace Ergo

/-! ## The order of the variables -/

namespace NameSet

theorem insertAll_names_insert (set added : NameSet) (name : String) :
    set.insertAll (added.insert name).names = (set.insertAll added.names).insert name := by
  by_cases present : added.contains name = true
  · have known : name ∈ set.insertAll added.names :=
      mem_insertAll.mpr (.inr (contains_iff_mem.mp present))
    rw [insert, dif_pos present, insert, dif_pos (contains_iff_mem.mpr known)]
  · have appended : (added.insert name).names = added.names ++ [name] := by
      rw [insert, dif_neg present]
    rw [appended, insertAll_append]
    rfl

theorem insertAll_names_insertAll (set added : NameSet) (names : List String) :
    set.insertAll (added.insertAll names).names = (set.insertAll added.names).insertAll names := by
  induction names generalizing added with
  | nil => rfl
  | cons name names induction =>
      have first := insertAll_names_insert set added name
      simp only [insertAll, List.foldl_cons] at first induction ⊢
      rw [induction, first]

/-- Names can be added with or without their repetitions. -/
theorem insertAll_names_ofList (set : NameSet) (names : List String) :
    set.insertAll (ofList names).names = set.insertAll names :=
  insertAll_names_insertAll set empty names

theorem insertAll_flatMap_ofList {item : Type} (set : NameSet) (occurrences : item → List String)
    (items : List item) :
    set.insertAll (items.flatMap fun item => (ofList (occurrences item)).names) =
      set.insertAll (items.flatMap occurrences) := by
  induction items generalizing set with
  | nil => rfl
  | cons item items induction =>
      simp only [List.flatMap_cons, insertAll_append, insertAll_names_ofList, induction]

end NameSet

theorem Accepted.names_unknowns_extend_empty (text : String) (constraints : List Constraint) :
    (Accepted.empty.extend text constraints).unknowns.names =
      Constraint.variablesOf constraints :=
  congrArg NameSet.names
    (NameSet.insertAll_flatMap_ofList .empty Constraint.variableOccurrences constraints)

/-! ## Messages -/

/-- The letter that tells the kinds of messages apart. -/
def tenth? (text : String) : Option Char :=
  text.toList[9]?

theorem tenth?_append {start : String} {char : Char} (later : String)
    (isTenth : tenth? start = some char) : tenth? (start ++ later) = some char := by
  rw [tenth?, String.toList_append, List.getElem?_append_left]
  · exact isTenth
  · exact (List.getElem?_eq_some_iff.mp isTenth).1

namespace Equation

def Answer.letter : Answer → Char
  | .solved _ => 'f'
  | .unsolvable => 'o'
  | .undecided => 'u'
  | .invalid _ => 'q'

theorem Answer.tenth?_message (answer : Answer) : tenth? answer.message = some answer.letter := by
  cases answer with
  | solved values => exact tenth?_append _ rfl
  | unsolvable => rfl
  | undecided => rfl
  | invalid error => exact tenth?_append _ rfl

variable {answer : Answer}

theorem Answer.letter_of_message {text : String} {char : Char} (written : answer.message = text)
    (isTenth : tenth? text = some char) : answer.letter = char := by
  rw [← written, answer.tenth?_message] at isTenth
  exact Option.some.inj isTenth

theorem message_eq_invalid_iff {reason : String} :
    answer.message = "Invalid equation: " ++ reason ↔
      ∃ error, answer = .invalid error ∧ error.message = reason := by
  constructor
  · intro written
    have letter : answer.letter = 'q' := answer.letter_of_message written (tenth?_append _ rfl)
    cases answer with
    | solved | unsolvable | undecided => simp [Answer.letter] at letter
    | invalid error => exact ⟨error, rfl, String.append_right_inj _ |>.mp written⟩
  · rintro ⟨error, rfl, rfl⟩
    rfl

theorem message_eq_solved_iff :
    (∃ listed, answer.message = "Solution found: " ++ listed) ↔
      ∃ values, answer = .solved values := by
  constructor
  · rintro ⟨listed, written⟩
    have letter : answer.letter = 'f' := answer.letter_of_message written (tenth?_append _ rfl)
    cases answer with
    | solved values => exact ⟨values, rfl⟩
    | unsolvable | undecided | invalid => simp [Answer.letter] at letter
  · rintro ⟨values, rfl⟩
    exact ⟨_, rfl⟩

theorem message_eq_unsolvable_iff :
    answer.message = "No solution exists for the given constraints" ↔ answer = .unsolvable := by
  constructor
  · intro written
    have letter : answer.letter = 'o' := answer.letter_of_message written rfl
    cases answer with
    | unsolvable => rfl
    | solved | undecided | invalid => simp [Answer.letter] at letter
  · rintro rfl
    rfl

theorem message_eq_undecided_iff :
    answer.message = "Solution unknown: the solver could not decide the given constraints" ↔
      answer = .undecided := by
  constructor
  · intro written
    have letter : answer.letter = 'u' := answer.letter_of_message written rfl
    cases answer with
    | undecided => rfl
    | solved | unsolvable | invalid => simp [Answer.letter] at letter
  · rintro rfl
    rfl

end Equation

namespace Session

section Messages

variable {check : Check}

theorem Check.message_eq_satisfiable_iff :
    check.message = "Satisfiable" ↔ check.satisfiable = true := by
  rw [message, satisfiable, solution?]
  cases check.verdict <;> simp [Verdict.model?]

theorem Check.message_eq_unsatisfiable_iff :
    check.message = "Unsatisfiable - no solution exists for the given constraints" ↔
      check.verdict = .unsatisfiable := by
  rw [message]
  cases check.verdict <;> simp

theorem Check.message_eq_unknown_iff :
    check.message = "Unknown - the solver could not determine satisfiability" ↔
      check.verdict = .unknown := by
  rw [message]
  cases check.verdict <;> simp

end Messages

/-! ## One system, solved and added -/

/-- What solving a text and adding it to a new session with the same solver have in common. -/
structure AgreesWithSolution (solver : Constraint.Solver) (text : String) : Prop where
  refused_iff : ∀ reason,
    (Equation.solve solver text).message = "Invalid equation: " ++ reason ↔
      (new solver).add text = .error (.malformed reason)
  exists_reason : ∀ error, (new solver).add text = .error error →
    ∃ reason, error = .malformed reason
  verdict : ∀ session, (new solver).add text = .ok session → ∃ check, session.check = .ok check ∧
    ((∃ listed, (Equation.solve solver text).message = "Solution found: " ++ listed) ↔
      check.message = "Satisfiable") ∧
    ((Equation.solve solver text).message = "No solution exists for the given constraints" ↔
      check.message = "Unsatisfiable - no solution exists for the given constraints") ∧
    ((Equation.solve solver text).message =
        "Solution unknown: the solver could not decide the given constraints" ↔
      check.message = "Unknown - the solver could not determine satisfiability") ∧
    (solver.Decides → check.verdict ≠ .unknown ∧ (check.message = "Satisfiable" ↔
      ∃ assignment : String → ℝ, Constraint.TextIsTrue assignment text))
  names : ∀ session values, (new solver).add text = .ok session →
    Equation.solve solver text = .solved values →
      (values.map Prod.fst).Sublist session.accepted.unknowns.names ∧
      (solver.ValuesAll → values.map Prod.fst = session.accepted.unknowns.names)

variable {solver : Constraint.Solver} {text : String}

/-- What is asked of the solver is what the session asks that the text is added to. -/
theorem solve_of_read {constraints : List Constraint}
    (read : Constraint.parseList text = .ok constraints) :
    Equation.solve solver text =
      .ofVerdict ((solver (Accepted.empty.extend text constraints).unknowns.names constraints).map
        fun model =>
          Constraint.valued model.value? (Accepted.empty.extend text constraints).unknowns.names) := by
  rw [Accepted.names_unknowns_extend_empty, Equation.solve, read]

theorem agreesWithSolution_of_malformed {error : Language.ParseError}
    (filled : (Text.trimChars text.toList).isEmpty = false)
    (read : Constraint.parseList text = .error error) : AgreesWithSolution solver text := by
  have solved : Equation.solve solver text = .invalid error := by rw [Equation.solve, read]
  have added := add_of_malformed filled read (new solver)
  exact {
    refused_iff := by
      intro reason
      simp [Equation.message_eq_invalid_iff, solved, added]
    exists_reason := by
      intro other refused
      rw [added] at refused
      cases refused
      exact ⟨_, rfl⟩
    verdict := by simp [added]
    names := by simp [added] }

theorem agreesWithSolution_of_read {constraints : List Constraint}
    (filled : (Text.trimChars text.toList).isEmpty = false)
    (read : Constraint.parseList text = .ok constraints) : AgreesWithSolution solver text := by
  let accepted := Accepted.empty.extend text constraints
  have fromTexts : accepted.FromTexts := .extend .empty filled read
  have solved : Equation.solve solver text =
      .ofVerdict ((solver accepted.unknowns.names constraints).map fun model =>
        Constraint.valued model.value? accepted.unknowns.names) := solve_of_read read
  have checkVerdict : accepted.verdict solver =
      (solver accepted.unknowns.names constraints).map fun model =>
        Constraint.valued model.assigned? accepted.unknowns.names := rfl
  have added := add_of_read filled read (new solver)
  exact {
    refused_iff := by
      intro reason
      rw [Equation.message_eq_invalid_iff, solved, added]
      cases solver accepted.unknowns.names constraints <;>
        simp [Verdict.map, Equation.Answer.ofVerdict]
    exists_reason := by simp [added]
    verdict := by
      intro session accepts
      rw [added] at accepts
      cases accepts
      refine ⟨{ verdict := accepted.verdict solver, log := accepted.log }, rfl, ?_, ?_, ?_, ?_⟩
      · rw [Equation.message_eq_solved_iff, Check.message_eq_satisfiable_iff, solved,
          Check.satisfiable, Check.solution?, checkVerdict]
        cases solver accepted.unknowns.names constraints <;>
          simp [Verdict.map, Verdict.model?, Equation.Answer.ofVerdict]
      · rw [Equation.message_eq_unsolvable_iff, Check.message_eq_unsatisfiable_iff, solved,
          checkVerdict]
        cases solver accepted.unknowns.names constraints <;>
          simp [Verdict.map, Equation.Answer.ofVerdict]
      · rw [Equation.message_eq_undecided_iff, Check.message_eq_unknown_iff, solved, checkVerdict]
        cases solver accepted.unknowns.names constraints <;>
          simp [Verdict.map, Equation.Answer.ofVerdict]
      · intro decides
        refine ⟨fromTexts.verdict_ne_unknown decides, ?_⟩
        rw [Check.message_eq_satisfiable_iff, Check.satisfiable, Check.solution?,
          fromTexts.satisfiable_iff decides]
        exact exists_congr fun assignment => List.forall_mem_singleton
    names := by
      intro session values accepts reported
      rw [added] at accepts
      cases accepts
      rw [solved] at reported
      cases answer : solver accepted.unknowns.names constraints with
      | satisfiable model =>
          rw [answer] at reported
          cases reported
          refine ⟨Constraint.sublist_valued _ _, fun valuesAll => ?_⟩
          exact Constraint.map_fst_valued (valuesAll _ _ model fromTexts.wellPosed answer)
      | unsatisfiable => simp [answer, Verdict.map, Equation.Answer.ofVerdict] at reported
      | unknown => simp [answer, Verdict.map, Equation.Answer.ofVerdict] at reported }

/-- Every text that is not blank is refused by both or by neither, for the same reason. Of one that is
accepted the solver says the same to both, and the values that it reports are those of the session's
variables in their order. -/
theorem agrees_with_solution (solver : Constraint.Solver) (text : String)
    (filled : (Text.trimChars text.toList).isEmpty = false) : AgreesWithSolution solver text := by
  cases read : Constraint.parseList text with
  | error error => exact agreesWithSolution_of_malformed filled read
  | ok constraints => exact agreesWithSolution_of_read filled read

def level : Session :=
  (new .elimination).extend "y = x, Not(x < y)"
    [.compare .equal (.var "y") (.var "x"), .not (.compare .less (.var "x") (.var "y"))]

theorem level_agrees_with_solution :
    (Text.trimChars "y = x, Not(x < y)".toList).isEmpty = false ∧
      (new .elimination).add "y = x, Not(x < y)" = .ok level ∧
      (Equation.solve .elimination "y = x, Not(x < y)").message =
        "Solution found: y = 0, x = 0" ∧
      level.accepted.unknowns.names = ["y", "x"] ∧
      ∃ check, level.check = .ok check ∧ check.message = "Satisfiable" := by
  have filled : (Text.trimChars "y = x, Not(x < y)".toList).isEmpty = false := by decide
  have added : (new .elimination).add "y = x, Not(x < y)" = .ok level :=
    add_of_read filled (by decide +kernel) _
  have solved : Equation.solve .elimination "y = x, Not(x < y)" = .solved [("y", 0), ("x", 0)] := by
    decide +kernel
  have agrees := agrees_with_solution .elimination "y = x, Not(x < y)" filled
  obtain ⟨check, checked, solved_iff, -⟩ := agrees.verdict _ added
  have names := (agrees.names _ _ added solved).2 Constraint.Solver.elimination_valuesAll
  refine ⟨filled, added, ?_, names.symm, check, checked, ?_⟩
  · rw [solved]
    decide +kernel
  · exact solved_iff.mp (Equation.message_eq_solved_iff.mpr ⟨_, solved⟩)

end Session

end Ergo
