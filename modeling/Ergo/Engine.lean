import Ergo.Argument.Compiler
import Ergo.Constraint.Calculation
import Ergo.Constraint.Equation
import Ergo.Proof.Basic
import Ergo.RelationStore
import Ergo.Session.Request

/-!
The engine: a compiler, a prover, a session, and a store of relations if one is attached. The
triples of every compiled argument are stored.
-/

namespace Ergo

open Ergo.Argument

inductive EngineError
  | compile (error : CompileError)
  | prover (error : ProofError)
  | session (error : SessionError)
  deriving DecidableEq, Repr

def EngineError.message : EngineError → String
  | .compile error => "Compile error: " ++ error.message
  | .prover error => "Prover error: " ++ error.message
  | .session error => "Session error: " ++ error.message

structure Engine where
  settings : Settings
  compiler : Compiler
  solver : Ground.Solver
  /-- The most ground instances that one goal of a proof may have. -/
  instanceLimit : Nat
  session : Session
  store? : Option RelationStore

namespace Engine

/-- An argument, its program, and the outcome of its proof. -/
structure ArgumentProof where
  compiled : Compiled
  outcome : Outcome
  deriving DecidableEq, Repr

def ofSettings (settings : Settings) : Engine :=
  { settings := settings
    compiler := .ofSettings settings.compiler
    solver := .search
    instanceLimit := settings.prover.instanceLimit
    session := .new .elimination
    store? := none }

def withStore (engine : Engine) (store : RelationStore) : Engine :=
  { engine with store? := some store }

def withCompiler (engine : Engine) (compiler : Compiler) : Engine :=
  { engine with compiler := compiler }

def withInstanceLimit (engine : Engine) (limit : Nat) : Engine :=
  { engine with instanceLimit := limit }

def publish (engine : Engine) (triples : List English.Triple) : Engine :=
  { engine with
    store? := engine.store?.map fun store =>
      (store.saveAll (triples.map RelationRecord.ofTriple)).1 }

def compile (engine : Engine) (premises : List String) (conclusion : String) :
    Except EngineError (Engine × Compiled) :=
  match engine.compiler.compile premises conclusion with
  | .error error => .error (.compile error)
  | .ok compiled => .ok (engine.publish compiled.triples, compiled)

def proveProgram (engine : Engine) (program : Program) : Except EngineError Outcome :=
  (program.prove engine.solver engine.instanceLimit).mapError .prover

/-- Proves a conclusion from statements. Blank statements are passed over. -/
def proveStatements (engine : Engine) (premises : List String) (conclusion : String) :
    Except EngineError Outcome := do
  let premises := Compiler.statedTexts premises
  let conclusion := Text.trim conclusion
  if premises.isEmpty then throw (.compile .noPremises)
  if conclusion.isEmpty then throw (.compile .noConclusion)
  let program ← (Program.parse premises conclusion).mapError .prover
  engine.proveProgram program

/-- The engine after compiling an argument, and the proof of its program. The triples are
published even if the program is refused. -/
def proveArgument (engine : Engine) (premises : List String) (conclusion : String) :
    Engine × Except EngineError ArgumentProof :=
  match engine.compile premises conclusion with
  | .error error => (engine, .error error)
  | .ok (engine, compiled) =>
      (engine, (engine.proveProgram compiled.program).map fun outcome => ⟨compiled, outcome⟩)

def request (engine : Engine) (request : Session.Request) : Engine × Session.Reply :=
  let (session, reply) := engine.session.serve request
  ({ engine with session := session }, reply)

end Engine

end Ergo
