import Ergo.Proofs.Session.Runs
import Ergo.Session.Guard

/-!
Restoring a session. Every text in the log of a session is accepted when the log is added again, so
the session is made anew from its log alone; and texts that were added after a mark only follow the
ones that count. Whatever a broken-off call did to the session is therefore undone.
-/

namespace Ergo

namespace Session

/-- The session that `texts` lead to after a reset. -/
def replay (solver : Constraint.Solver) (texts : List String) : Session :=
  texts.foldl addOrKeep (reset (new solver))

theorem replay_concat (solver : Constraint.Solver) (texts : List String) (text : String) :
    replay solver (texts ++ [text]) = (replay solver texts).addOrKeep text := by
  simp [replay]

theorem addOrKeep_eq_serve (session : Session) (text : String) :
    session.addOrKeep text = (session.serve (.add text)).1 := by
  cases added : session.add text <;> simp [addOrKeep, serve, added]

theorem restore_some (session : Session) (count : Nat) :
    session.restore (some count) = replay session.solver (session.log.take count) :=
  rfl

/-! ## Sessions within reach -/

/-- The sessions that serving requests and restoring to any mark lead to. -/
inductive Reachable : Session → Prop
  | new (solver : Constraint.Solver) : Reachable (new solver)
  | serve {session : Session} (reachable : Reachable session) (request : Request) :
      Reachable (session.serve request).1
  | restore {session : Session} (reachable : Reachable session) (mark : Option Nat) :
      Reachable (session.restore mark)

theorem fromTexts_serve {session : Session} (fromTexts : session.accepted.FromTexts)
    (request : Request) : (session.serve request).1.accepted.FromTexts := by
  rcases session.serve_cases request with
    ⟨-, served⟩ | ⟨text, constraints, -, filled, read, served⟩ | ⟨-, same, -⟩
  · rw [served]
    exact .empty
  · rw [served]
    exact fromTexts.extend filled read
  · rwa [same]

theorem fromTexts_replay (solver : Constraint.Solver) (texts : List String) :
    (replay solver texts).accepted.FromTexts := by
  induction texts using List.reverseRecOn with
  | nil => exact .empty
  | append_singleton texts text induction =>
      rw [replay_concat, addOrKeep_eq_serve]
      exact fromTexts_serve induction _

theorem Reachable.fromTexts {session : Session} (reachable : session.Reachable) :
    session.accepted.FromTexts := by
  induction reachable with
  | new => exact .empty
  | serve _ request induction => exact fromTexts_serve induction request
  | restore _ mark _ =>
      cases mark with
      | none => exact .empty
      | some count => exact fromTexts_replay _ _

theorem Reachable.serveAll {session : Session} (reachable : session.Reachable)
    (requests : List Request) : (session.serveAll requests).1.Reachable := by
  induction requests generalizing session with
  | nil => exact reachable
  | cons request later induction => exact induction (reachable.serve request)

end Session

/-! ## The log leads to the session -/

namespace Accepted.FromTexts

variable {accepted : Accepted}

theorem replay_log (fromTexts : accepted.FromTexts) (solver : Constraint.Solver) :
    Session.replay solver accepted.log = { solver := solver, accepted? := some accepted } := by
  induction fromTexts with
  | empty => rfl
  | @extend accepted text constraints _ filled read induction =>
      rw [Accepted.extend, Session.replay_concat, induction, Session.addOrKeep,
        Session.add_of_read filled read]
      rfl

theorem filled_of_mem_log (fromTexts : accepted.FromTexts) :
    ∀ text ∈ accepted.log, (Text.trimChars text.toList).isEmpty = false := by
  induction fromTexts with
  | empty => simp [Accepted.empty]
  | extend _ filled _ induction =>
      rw [Accepted.extend, List.forall_mem_append, List.forall_mem_singleton]
      exact ⟨induction, filled⟩

/-- The first texts of a log lead to a session that accepts the next one. -/
theorem add_replay (fromTexts : accepted.FromTexts) (solver : Constraint.Solver)
    {front later : List String} {text : String} (split : accepted.log = front ++ text :: later) :
    (Session.replay solver front).add text = .ok (Session.replay solver (front ++ [text])) := by
  have logged : text ∈ accepted.log := by simp [split]
  have filled := fromTexts.filled_of_mem_log text logged
  obtain ⟨constraints, read⟩ := fromTexts.exists_read text logged
  rw [Session.replay_concat, Session.addOrKeep, Session.add_of_read filled read]

end Accepted.FromTexts

namespace Session

variable {session : Session}

/-- A session whose log still starts with that of the marked one is restored to it, whatever else it
holds. -/
theorem restore_checkpoint (fromTexts : session.accepted.FromTexts) {broken : Session}
    (sameSolver : broken.solver = session.solver) (kept : session.log <+: broken.log) :
    broken.restore session.checkpoint = session := by
  rcases session with ⟨solver, _ | accepted⟩
  · exact congrArg new sameSolver
  · have logged : broken.log.take accepted.log.length = accepted.log :=
      (List.prefix_iff_eq_take.mp kept).symm
    rw [checkpoint, Option.map_some, restore_some, logged, sameSolver]
    exact fromTexts.replay_log solver

theorem restore_serveAll (reachable : session.Reachable) {calls : List Request}
    (others : ∀ call ∈ calls, call ≠ .reset) :
    (session.serveAll calls).1.restore session.checkpoint = session := by
  apply restore_checkpoint reachable.fromTexts (session.solver_serveAll calls)
  rw [log_serveAll others]
  exact List.prefix_append _ _

/-- After adds and checks, restoring to the mark of a session within reach gives that session back, and
no text of its log is refused on the way. So a request that makes such calls and is then broken off is
refused as malformed and leaves the session as it was. -/
theorem restored_of_abandoned (session : Session) (reachable : session.Reachable)
    (calls : List Request) (others : ∀ call ∈ calls, call ≠ .reset) :
    (session.serveAll calls).1.restore session.checkpoint = session ∧
      (∀ front text later, session.log = front ++ text :: later →
        (replay session.solver front).add text =
          .ok (replay session.solver (front ++ [text]))) ∧
      ∀ (value : Type) (request : Session → Session × Ending value) (reason? : Option String),
        request session = ((session.serveAll calls).1, .brokenOff reason?) →
          session.guarded request =
            (session, .error (.malformed (failureReason reason?))) := by
  have restored := restore_serveAll reachable others
  refine ⟨restored, fun _ _ _ => reachable.fromTexts.add_replay _, ?_⟩
  intro value request reason? brokenOff
  rw [guarded, brokenOff]
  exact congrArg (·, _) restored

def oneEquation : Session :=
  (new .elimination).extend "x = y" [.compare .equal (.var "x") (.var "y")]

def contradicting : List Request :=
  [.add "x < y, y = z", .add "x <", .check]

def failing (session : Session) : Session × Ending Reply :=
  ((session.serveAll contradicting).1, .brokenOff (some "solver blew up"))

/-- The contradiction is undone. -/
theorem oneEquation_restored :
    oneEquation.Reachable ∧ (∀ call ∈ contradicting, call ≠ .reset) ∧
      (oneEquation.serveAll contradicting).1.status = ⟨true, 2, 3, ["x = y", "x < y, y = z"]⟩ ∧
      (oneEquation.serveAll contradicting).1.restore oneEquation.checkpoint = oneEquation ∧
      (replay .elimination []).add "x = y" = .ok (replay .elimination ["x = y"]) ∧
      oneEquation.guarded failing = (oneEquation, .error (.malformed "solver blew up")) := by
  have reachable : oneEquation.Reachable := by
    have added : (new .elimination).add "x = y" = .ok oneEquation :=
      add_of_read (by decide) (by decide +kernel) _
    have served : ((new .elimination).serve (.add "x = y")).1 = oneEquation := by rw [serve, added]
    exact served ▸ .serve (.new .elimination) _
  have others : ∀ call ∈ contradicting, call ≠ .reset := by decide
  have grown : (oneEquation.serveAll contradicting).1.status =
      ⟨true, 2, 3, ["x = y", "x < y, y = z"]⟩ := by
    decide +kernel
  obtain ⟨restored, replayed, undone⟩ :=
    restored_of_abandoned oneEquation reachable contradicting others
  exact ⟨reachable, others, grown, restored, replayed [] _ [] rfl, undone _ failing _ rfl⟩

end Session

end Ergo
