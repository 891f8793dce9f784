import Ergo.Constraint.Reader
import Ergo.Constraint.Solver
import Ergo.Text.Words

/-!
Sessions that accumulate constraints until they are reset. A session is inactive until it first
accepts a constraint or is reset. A text that is refused leaves the session as it was.
-/

namespace Ergo

inductive SessionError
  | emptyConstraint
  | malformed (reason : String)
  | inactive
  deriving DecidableEq, Repr

def SessionError.message : SessionError → String
  | .emptyConstraint => "No constraint provided"
  | .malformed reason => s!"Error adding constraint: {reason}"
  | .inactive => "No constraints have been added yet"

/-- The accepted texts, oldest first, the constraints read from them, and the variables of these
in the order in which they were first met. -/
structure Accepted where
  log : List String
  constraints : List Constraint
  unknowns : NameSet
  deriving Repr

namespace Accepted

def empty : Accepted := { log := [], constraints := [], unknowns := .empty }

def extend (accepted : Accepted) (text : String) (constraints : List Constraint) : Accepted :=
  { log := accepted.log ++ [text]
    constraints := accepted.constraints ++ constraints
    unknowns := accepted.unknowns.insertAll (constraints.flatMap Constraint.unknowns) }

/-- What the solver says, with the values that its model assigns. -/
def verdict (solver : Constraint.Solver) (accepted : Accepted) : Verdict (List (String × Rat)) :=
  (solver accepted.unknowns.names accepted.constraints).map fun model =>
    Constraint.valued model.assigned? accepted.unknowns.names

end Accepted

structure Session where
  solver : Constraint.Solver
  accepted? : Option Accepted

namespace Session

structure Status where
  active : Bool
  constraintCount : Nat
  variableCount : Nat
  log : List String
  deriving DecidableEq, Repr

/-- The answer to a check of everything accepted. -/
structure Check where
  verdict : Verdict (List (String × Rat))
  log : List String
  deriving DecidableEq, Repr

def Check.solution? (check : Check) : Option (List (String × Rat)) :=
  check.verdict.model?

def Check.satisfiable (check : Check) : Bool :=
  check.solution?.isSome

def Check.message (check : Check) : String :=
  match check.verdict with
  | .satisfiable _ => "Satisfiable"
  | .unsatisfiable => "Unsatisfiable - no solution exists for the given constraints"
  | .unknown => "Unknown - the solver could not determine satisfiability"

def new (solver : Constraint.Solver) : Session := { solver := solver, accepted? := none }

def isActive (session : Session) : Bool :=
  session.accepted?.isSome

/-- What has been accepted since the session was last empty. -/
def accepted (session : Session) : Accepted :=
  session.accepted?.getD .empty

def log (session : Session) : List String :=
  session.accepted.log

def reset (session : Session) : Session :=
  { session with accepted? := some .empty }

def extend (session : Session) (text : String) (constraints : List Constraint) : Session :=
  { session with accepted? := some (session.accepted.extend text constraints) }

def add (session : Session) (text : String) : Except SessionError Session :=
  if (Text.trimChars text.toList).isEmpty then .error .emptyConstraint
  else
    match Constraint.parseList text with
    | .error error => .error (.malformed error.message)
    | .ok constraints => .ok (session.extend text constraints)

def check (session : Session) : Except SessionError Check :=
  match session.accepted? with
  | none => .error .inactive
  | some accepted => .ok { verdict := accepted.verdict session.solver, log := accepted.log }

def status (session : Session) : Status :=
  { active := session.isActive
    constraintCount := session.log.length
    variableCount := session.accepted.unknowns.size
    log := session.log }

def Status.label (status : Status) : String :=
  if status.active then "active" else "inactive"

/-! ## Marks -/

/-- The number of texts accepted so far, or nothing while the session is inactive. -/
def checkpoint (session : Session) : Option Nat :=
  session.accepted?.map fun accepted => accepted.log.length

/-- Adds `text`, or leaves the session as it is if the text is refused. -/
def addOrKeep (session : Session) (text : String) : Session :=
  match session.add text with
  | .ok session => session
  | .error _ => session

/-- The session as it was when `mark` was taken: the texts accepted up to then are added again. -/
def restore (session : Session) (mark : Option Nat) : Session :=
  match mark with
  | none => new session.solver
  | some count => (session.log.take count).foldl addOrKeep session.reset

end Session

end Ergo
