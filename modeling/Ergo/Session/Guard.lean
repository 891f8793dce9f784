import Ergo.Session.Request

/-!
Calls on a session that a failure may break off. The session then becomes again what it was when the
call was made, and the call is refused with what the failure says of itself. An add and a check are
served as such calls.
-/

namespace Ergo.Session

/-- How a call ends. A failure that breaks it off need not say anything. -/
inductive Ending (value : Type)
  | returned (result : Except SessionError value)
  | brokenOff (reason? : Option String)

def failureReason (reason? : Option String) : String :=
  reason?.getD "solver failure"

def guarded {value : Type} (session : Session) (call : Session → Session × Ending value) :
    Session × Except SessionError value :=
  match call session with
  | (next, .returned result) => (next, result)
  | (next, .brokenOff reason?) =>
      (next.restore session.checkpoint, .error (.malformed (failureReason reason?)))

/-! ## Requests as calls -/

def adding (text : String) (session : Session) : Session × Ending Reply :=
  match session.add text with
  | .ok next => (next, .returned (.ok (.added text next.log)))
  | .error error => (session, .returned (.error error))

def checking (session : Session) : Session × Ending Reply :=
  (session, .returned (session.check.map .checked))

def Reply.ofResult : Except SessionError Reply → Reply
  | .ok reply => reply
  | .error error => .refused error

theorem serve_add (session : Session) (text : String) :
    session.serve (.add text) =
      ((session.guarded (adding text)).1, .ofResult (session.guarded (adding text)).2) := by
  cases added : session.add text <;> simp [serve, guarded, adding, added, Reply.ofResult]

theorem serve_check (session : Session) :
    session.serve .check =
      ((session.guarded checking).1, .ofResult (session.guarded checking).2) := by
  cases checked : session.check <;>
    simp [serve, guarded, checking, checked, Reply.ofResult, Except.map]

end Ergo.Session
