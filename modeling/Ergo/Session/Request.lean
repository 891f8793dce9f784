import Ergo.Session.Basic

/-!
Requests to a session and their replies, and a board on which several handles share sessions.
Requests are served one at a time, in the order in which they arrive.
-/

namespace Ergo.Session

inductive Request
  | add (text : String)
  | check
  | reset
  | status
  deriving DecidableEq, Repr

inductive Reply
  | added (text : String) (log : List String)
  | checked (check : Check)
  | wasReset
  | status (status : Status)
  | refused (error : SessionError)
  deriving Repr

def addedMessage : String := "Constraint added"

def resetMessage : String := "Solver context reset successfully"

def serve (session : Session) : Request → Session × Reply
  | .add text =>
      match session.add text with
      | .ok next => (next, .added text next.log)
      | .error error => (session, .refused error)
  | .check =>
      match session.check with
      | .ok check => (session, .checked check)
      | .error error => (session, .refused error)
  | .reset => (session.reset, .wasReset)
  | .status => (session, .status session.status)

def serveAll (session : Session) : List Request → Session × List Reply
  | [] => (session, [])
  | request :: later =>
      let (next, reply) := session.serve request
      let (final, replies) := next.serveAll later
      (final, reply :: replies)

end Ergo.Session

namespace Ergo

/-- Sessions and the handles that reach them. A dropped handle reaches nothing. -/
structure SessionBoard where
  solver : Constraint.Solver
  sessions : List Session
  handles : List (Option Nat)

namespace SessionBoard

def new (solver : Constraint.Solver) : SessionBoard :=
  { solver := solver, sessions := [.new solver], handles := [some 0] }

/-- The place of the session that a handle reaches. -/
def reach? (board : SessionBoard) (handle : Nat) : Option Nat :=
  board.handles[handle]?.join

/-- Adds a handle that reaches the session of `handle`; its number is the count of handles made
before. -/
def clone? (board : SessionBoard) (handle : Nat) : Option (SessionBoard × Nat) :=
  (board.reach? handle).map fun place =>
    ({ board with handles := board.handles ++ [some place] }, board.handles.length)

def spawn (board : SessionBoard) : SessionBoard × Nat :=
  ({ board with
      sessions := board.sessions ++ [.new board.solver]
      handles := board.handles ++ [some board.sessions.length] }, board.handles.length)

def drop? (board : SessionBoard) (handle : Nat) : Option SessionBoard :=
  (board.reach? handle).map fun _ =>
    { board with handles := board.handles.set handle none }

def request? (board : SessionBoard) (handle : Nat) (request : Session.Request) :
    Option (SessionBoard × Session.Reply) := do
  let place ← board.reach? handle
  let session ← board.sessions[place]?
  let (next, reply) := session.serve request
  return ({ board with sessions := board.sessions.set place next }, reply)

end SessionBoard

end Ergo
