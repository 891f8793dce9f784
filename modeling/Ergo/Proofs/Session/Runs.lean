import Ergo.Proofs.Session.Accepted
import Ergo.Session.Request
import Mathlib.Data.List.DropRight

/-!
Runs of a session. What a session holds is told by the requests it has served and its replies: the
log lists the texts accepted since the last reset, the constraints are those of the logged texts,
and a check decides whether real numbers satisfy them.
-/

namespace Ergo

/-! ## Requests and replies -/

namespace Session

/-- The requests that a session serves one after the other, each with its reply. -/
def run (session : Session) (requests : List Request) : List (Request × Reply) :=
  requests.zip (session.serveAll requests).2

theorem run_cons (session : Session) (request : Request) (later : List Request) :
    session.run (request :: later) =
      (request, (session.serve request).2) :: (session.serve request).1.run later :=
  rfl

theorem run_append (session : Session) (first later : List Request) :
    session.run (first ++ later) =
      session.run first ++ (session.serveAll first).1.run later := by
  induction first generalizing session with
  | nil => rfl
  | cons request first induction =>
      rw [List.cons_append, run_cons, run_cons, induction, List.cons_append]
      rfl

/-- The text of an add that was accepted. -/
def acceptedText? : Request × Reply → Option String
  | (.add text, .added _ _) => some text
  | _ => none

def sinceReset (events : List (Request × Reply)) : List (Request × Reply) :=
  events.rtakeWhile fun event => event.1 != .reset

/-- The texts accepted since the last reset, oldest first. -/
def acceptedTexts (events : List (Request × Reply)) : List String :=
  (sinceReset events).filterMap acceptedText?

theorem acceptedTexts_concat_of_reset (events : List (Request × Reply)) (reply : Reply) :
    acceptedTexts (events ++ [(.reset, reply)]) = [] := by
  simp [acceptedTexts, sinceReset]

theorem acceptedTexts_concat {request : Request} (other : request ≠ .reset)
    (events : List (Request × Reply)) (reply : Reply) :
    acceptedTexts (events ++ [(request, reply)]) =
      acceptedTexts events ++ (acceptedText? (request, reply)).toList := by
  cases text : acceptedText? (request, reply) <;> simp [acceptedTexts, sinceReset, other, text]

theorem count_acceptedTexts (events : List (Request × Reply)) (text : String) :
    (acceptedTexts events).count text =
      (sinceReset events).countP (acceptedText? · = some text) := by
  rw [acceptedTexts, List.count_eq_countP, List.countP_filterMap]
  congr 1
  funext event
  cases acceptedText? event <;> simp [beq_eq_decide]

example :
    acceptedTexts
        [(.add "x > 1", .added "x > 1" ["x > 1"]), (.reset, .wasReset),
          (.add "y < 2", .added "y < 2" ["y < 2"]), (.add "", .refused .emptyConstraint)] =
      ["y < 2"] := by
  decide

/-- Whether an event makes a session active. -/
def activates (event : Request × Reply) : Bool :=
  event.1 == .reset || (acceptedText? event).isSome

theorem add_of_read {text : String} {constraints : List Constraint}
    (filled : (Text.trimChars text.toList).isEmpty = false)
    (read : Constraint.parseList text = .ok constraints) (session : Session) :
    session.add text = .ok (session.extend text constraints) := by
  simp [add, filled, read]

theorem add_of_malformed {text : String} {error : Language.ParseError}
    (filled : (Text.trimChars text.toList).isEmpty = false)
    (read : Constraint.parseList text = .error error) (session : Session) :
    session.add text = .error (.malformed error.message) := by
  simp [add, filled, read]

theorem serve_add_of_read {text : String} {constraints : List Constraint}
    (filled : (Text.trimChars text.toList).isEmpty = false)
    (read : Constraint.parseList text = .ok constraints) (session : Session) :
    session.serve (.add text) =
      (session.extend text constraints, .added text (session.log ++ [text])) := by
  rw [serve, add_of_read filled read]
  rfl

/-- A request resets the session, or adds a text that is neither blank nor malformed, or leaves the
session as it is. -/
theorem serve_cases (session : Session) (request : Request) :
    request = .reset ∧ session.serve request = (session.reset, .wasReset) ∨
    (∃ text constraints, request = .add text ∧
      (Text.trimChars text.toList).isEmpty = false ∧
      Constraint.parseList text = .ok constraints ∧
      session.serve request =
        (session.extend text constraints, .added text (session.log ++ [text]))) ∨
    request ≠ .reset ∧ (session.serve request).1 = session ∧
      acceptedText? (request, (session.serve request).2) = none := by
  cases request with
  | add text =>
      cases added : session.add text with
      | error error => simp [serve, added, acceptedText?]
      | ok next =>
          unfold add at added
          split at added
          · cases added
          · next filled =>
              cases read : Constraint.parseList text with
              | error error => simp [read] at added
              | ok constraints =>
                  have filled : (Text.trimChars text.toList).isEmpty = false := by
                    simpa using filled
                  exact .inr (.inl ⟨text, constraints, rfl, filled, read,
                    session.serve_add_of_read filled read⟩)
  | check => cases checked : session.check <;> simp [serve, checked, acceptedText?]
  | reset => exact .inl ⟨rfl, rfl⟩
  | status => simp [serve, acceptedText?]

@[simp] theorem solver_serve (session : Session) (request : Request) :
    (session.serve request).1.solver = session.solver := by
  rcases session.serve_cases request with ⟨-, served⟩ | ⟨_, _, -, -, -, served⟩ | ⟨-, same, -⟩
  · rw [served]
    rfl
  · rw [served]
    rfl
  · rw [same]

@[simp] theorem solver_serveAll (session : Session) (requests : List Request) :
    (session.serveAll requests).1.solver = session.solver := by
  induction requests generalizing session with
  | nil => rfl
  | cons request later induction =>
      exact (induction (session.serve request).1).trans (session.solver_serve request)

/-- Only an add is answered with a log, which is the new one and ends in the text. -/
theorem eq_of_serve_eq_added {session : Session} {request : Request} {text : String}
    {log : List String} (added : (session.serve request).2 = .added text log) :
    request = .add text ∧ log = session.log ++ [text] ∧ (session.serve request).1.log = log := by
  rcases session.serve_cases request with
    ⟨-, served⟩ | ⟨_, _, rfl, -, -, served⟩ | ⟨-, -, noText⟩
  · rw [served] at added
    cases added
  · rw [served] at added ⊢
    cases added
    exact ⟨rfl, rfl, rfl⟩
  · rw [added] at noText
    cases request with
    | add => cases noText
    | check => cases checked : session.check <;> simp [serve, checked] at added
    | reset => cases added
    | status => cases added

theorem log_serve {request : Request} (other : request ≠ .reset) (session : Session) :
    (session.serve request).1.log =
      session.log ++ (acceptedText? (request, (session.serve request).2)).toList := by
  rcases session.serve_cases request with
    ⟨isReset, -⟩ | ⟨text, constraints, rfl, -, -, served⟩ | ⟨-, same, noText⟩
  · exact absurd isReset other
  · rw [served]
    rfl
  · simp [same, noText]

/-- Until the next reset, texts are only added to the end of the log. -/
theorem log_serveAll {requests : List Request} (others : ∀ request ∈ requests, request ≠ .reset)
    (session : Session) :
    (session.serveAll requests).1.log =
      session.log ++ (session.run requests).filterMap acceptedText? := by
  induction requests generalizing session with
  | nil => simp [serveAll, run]
  | cons request later induction =>
      rw [List.forall_mem_cons] at others
      have whole := induction others.2 (session.serve request).1
      rw [log_serve others.1 session] at whole
      rw [run_cons, List.filterMap_cons]
      cases text : acceptedText? (request, (session.serve request).2) <;>
        simpa [serveAll, text] using whole

theorem serveAll_append (session : Session) (first later : List Request) :
    session.serveAll (first ++ later) =
      (((session.serveAll first).1.serveAll later).1,
        (session.serveAll first).2 ++ ((session.serveAll first).1.serveAll later).2) := by
  induction first generalizing session with
  | nil => rfl
  | cons request first induction => simp [serveAll, induction]

/-- What a session holds after it has served `events`. -/
structure Records (session : Session) (events : List (Request × Reply)) : Prop where
  isActive_eq : session.isActive = events.any activates
  log_eq : session.log = acceptedTexts events
  fromTexts : session.accepted.FromTexts

theorem Records.new (solver : Constraint.Solver) : Records (Session.new solver) [] where
  isActive_eq := rfl
  log_eq := rfl
  fromTexts := .empty

theorem Records.serve {session : Session} {events : List (Request × Reply)}
    (records : Records session events) (request : Request) :
    Records (session.serve request).1 (events ++ [(request, (session.serve request).2)]) := by
  obtain ⟨isActive_eq, log_eq, fromTexts⟩ := records
  rcases session.serve_cases request with
    ⟨rfl, served⟩ | ⟨text, constraints, rfl, filled, read, served⟩ | ⟨other, same, noText⟩
  · rw [served]
    exact {
      isActive_eq := by simp [reset, isActive, activates]
      log_eq := (acceptedTexts_concat_of_reset events _).symm
      fromTexts := .empty }
  · rw [served]
    exact {
      isActive_eq := by simp [extend, isActive, activates, acceptedText?]
      log_eq := by
        rw [acceptedTexts_concat (by simp), ← log_eq]
        rfl
      fromTexts := fromTexts.extend filled read }
  · rw [same]
    exact {
      isActive_eq := by simp [isActive_eq, activates, noText, other]
      log_eq := by simp [acceptedTexts_concat other, log_eq, noText]
      fromTexts := fromTexts }

theorem Records.serveAll {session : Session} {events : List (Request × Reply)}
    (records : Records session events) (requests : List Request) :
    Records (session.serveAll requests).1 (events ++ session.run requests) := by
  -- What was served before is part of the record, so that each request extends it by one event.
  induction requests generalizing session events with
  | nil => simpa [Session.serveAll, run] using records
  | cons request later induction =>
      rw [run_cons, List.append_cons]
      exact induction (records.serve request)

/-- What a session shows after it has served `events`, and what the next request can change. -/
structure Faithful (session : Session) (events : List (Request × Reply)) : Prop where
  refused_add : ∀ text error, (session.serve (.add text)).2 = .refused error →
    (session.serve (.add text)).1 = session
  log_eq : session.log = acceptedTexts events
  status_eq : session.status =
    { active := events.any activates
      constraintCount := (acceptedTexts events).length
      variableCount :=
        ((acceptedTexts events).flatMap Constraint.textVariables).toFinset.card
      log := acceptedTexts events }
  check_eq_inactive_iff : session.check = .error .inactive ↔
    ∀ event ∈ events, event.1 ≠ .reset ∧ acceptedText? event = none
  eq_inactive_of_check : ∀ error, session.check = .error error → error = .inactive
  log_of_check : ∀ check, session.check = .ok check → check.log = acceptedTexts events
  verdict_ne_unknown : ∀ check, session.check = .ok check → check.verdict ≠ .unknown
  satisfiable_iff : ∀ check, session.check = .ok check →
    (check.satisfiable = true ↔ ∃ assignment : String → ℝ,
      ∀ text ∈ acceptedTexts events, Constraint.TextIsTrue assignment text)
  exists_extension : ∀ check values, session.check = .ok check →
    check.solution? = some values → ∃ assignment : String → ℝ,
      (∀ entry ∈ values, assignment entry.1 = entry.2) ∧
        ∀ text ∈ acceptedTexts events, Constraint.TextIsTrue assignment text
  serveAll_after_check : ∀ later,
    (session.serve .check).1.serveAll later = session.serveAll later
  serveAll_after_status : ∀ later,
    (session.serve .status).1.serveAll later = session.serveAll later

theorem serve_check_fst (session : Session) : (session.serve .check).1 = session := by
  cases checked : session.check <;> simp [serve, checked]

theorem check_eq_error_iff {session : Session} {error : SessionError} :
    session.check = .error error ↔ session.isActive = false ∧ error = .inactive := by
  obtain ⟨solver, _ | accepted⟩ := session <;> simp [check, isActive, eq_comm]

theorem check_eq_ok_iff {session : Session} {result : Check} :
    session.check = .ok result ↔
      session.isActive = true ∧
        result = { verdict := session.accepted.verdict session.solver, log := session.log } := by
  obtain ⟨solver, _ | accepted⟩ := session <;> simp [check, isActive, log, Session.accepted, eq_comm]

theorem Records.faithful {session : Session} {events : List (Request × Reply)}
    (records : Records session events) (decides : session.solver.Decides)
    (reports : session.solver.ReportsSolutions) : Faithful session events := by
  obtain ⟨isActive_eq, log_eq, fromTexts⟩ := records
  have logged : session.accepted.log = acceptedTexts events := log_eq
  exact {
    refused_add := by
      intro text error refused
      cases added : session.add text with
      | ok next => simp [Session.serve, added] at refused
      | error error => simp [Session.serve, added]
    log_eq := log_eq
    status_eq := by
      rw [status, isActive_eq, fromTexts.size_unknowns, log_eq, logged]
    check_eq_inactive_iff := by
      simp [check_eq_error_iff, isActive_eq, activates, List.any_eq_false]
    eq_inactive_of_check := fun error checked => (check_eq_error_iff.mp checked).2
    log_of_check := by
      intro check checked
      rw [(check_eq_ok_iff.mp checked).2, log_eq]
    verdict_ne_unknown := by
      intro check checked
      rw [(check_eq_ok_iff.mp checked).2]
      exact fromTexts.verdict_ne_unknown decides
    satisfiable_iff := by
      intro check checked
      rw [(check_eq_ok_iff.mp checked).2, Check.satisfiable, Check.solution?,
        fromTexts.satisfiable_iff decides, logged]
    exists_extension := by
      intro check values checked found
      rw [(check_eq_ok_iff.mp checked).2] at found
      simpa [logged] using fromTexts.exists_extension reports (Verdict.model?_eq_some_iff.mp found)
    serveAll_after_check := by simp [serve_check_fst]
    serveAll_after_status := fun later => rfl }

/-- Every run of a new session is faithful, if its solver decides linear constraints and reports
values that satisfy them: a refused add changes nothing, the log and the count of variables are
those of the texts accepted since the last reset, and a check is refused just if nothing was
accepted or reset and else decides whether real numbers satisfy every logged text. -/
theorem faithful_of_run {solver : Constraint.Solver} (decides : solver.Decides)
    (reports : solver.ReportsSolutions) (requests : List Request) :
    Faithful ((new solver).serveAll requests).1 ((new solver).run requests) := by
  refine ((Records.new solver).serveAll requests).faithful ?_ ?_
  · rwa [solver_serveAll]
  · rwa [solver_serveAll]

def narrowing : List Request :=
  [.add "x > 1", .add "x <", .add "x < 3", .status]

/-- The text that is refused is not logged, and the others have a solution. -/
theorem narrowing_faithful :
    ((new .elimination).serveAll narrowing).1.check =
        .ok { verdict := .satisfiable [("x", 2)], log := ["x > 1", "x < 3"] } ∧
      Faithful ((new .elimination).serveAll narrowing).1 ((new .elimination).run narrowing) ∧
      ∃ assignment : String → ℝ, assignment "x" = 2 ∧
        ∀ text ∈ ["x > 1", "x < 3"], Constraint.TextIsTrue assignment text := by
  have checked : ((new .elimination).serveAll narrowing).1.check =
      .ok { verdict := .satisfiable [("x", 2)], log := ["x > 1", "x < 3"] } := by decide +kernel
  have faithful := faithful_of_run Constraint.Solver.elimination_decides
    Constraint.Solver.elimination_reportsSolutions narrowing
  obtain ⟨assignment, values, allTrue⟩ := faithful.exists_extension _ _ checked rfl
  rw [← faithful.log_of_check _ checked] at allTrue
  exact ⟨checked, faithful, assignment, by simpa using values, allTrue⟩

end Session

end Ergo
