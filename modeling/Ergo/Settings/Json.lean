import Ergo.Json.Printer
import Ergo.Json.Reader
import Ergo.Settings.Basic

/-!
Settings as JSON. Every field is required; members that are no fields are passed over.
-/

namespace Ergo

/-! ## Writing -/

def CaseMode.name : CaseMode → String
  | .structural => "Structural"
  | .keyword => "Keyword"
  | .disabled => "Disabled"

def ConclusionPolicy.name : ConclusionPolicy → String
  | .reject => "Reject"
  | .assumeTrue => "AssumeTrue"

def CompilerSettings.toJson (settings : CompilerSettings) : Json :=
  .record [
    ("special_cases", .text settings.caseMode.name),
    ("conclusion_policy", .text settings.conclusionPolicy.name),
    ("extra_relation_phrases", .texts settings.phrases)]

def ProverSettings.toJson (settings : ProverSettings) : Json :=
  .record [
    ("timeout_ms", .natural settings.timeout),
    ("max_ground_instances", .natural settings.instanceLimit)]

def SessionSettings.toJson (settings : SessionSettings) : Json :=
  .record [("timeout_ms", .natural settings.timeout)]

namespace Settings

def toJson (settings : Settings) : Json :=
  .record [
    ("compiler", settings.compiler.toJson),
    ("prover", settings.prover.toJson),
    ("session", settings.session.toJson)]

def render (settings : Settings) : String :=
  settings.toJson.renderLines

end Settings

/-! ## Reading -/

def CaseMode.ofName? (name : String) : Option CaseMode :=
  [structural, keyword, disabled].find? fun mode => mode.name == name

def ConclusionPolicy.ofName? (name : String) : Option ConclusionPolicy :=
  [reject, assumeTrue].find? fun policy => policy.name == name

def CompilerSettings.ofJson? (json : Json) : Option CompilerSettings :=
  match json.fields? ["special_cases", "conclusion_policy", "extra_relation_phrases"] with
  | some [mode, policy, phrases] => do
      let caseMode ← mode.caseName?.bind CaseMode.ofName?
      let conclusionPolicy ← policy.caseName?.bind ConclusionPolicy.ofName?
      let phrases ← phrases.texts?
      return { caseMode, conclusionPolicy, phrases }
  | _ => none

def ProverSettings.ofJson? (json : Json) : Option ProverSettings :=
  match json.fields? ["timeout_ms", "max_ground_instances"] with
  | some [timeout, instanceLimit] => do
      let timeout ← timeout.natural?
      let instanceLimit ← instanceLimit.natural?
      return { timeout, instanceLimit }
  | _ => none

def SessionSettings.ofJson? (json : Json) : Option SessionSettings :=
  match json.fields? ["timeout_ms"] with
  | some [timeout] => do
      let timeout ← timeout.natural?
      return { timeout }
  | _ => none

namespace Settings

def ofJson? (json : Json) : Option Settings :=
  match json.fields? ["compiler", "prover", "session"] with
  | some [compiler, prover, session] => do
      let compiler ← CompilerSettings.ofJson? compiler
      let prover ← ProverSettings.ofJson? prover
      let session ← SessionSettings.ofJson? session
      return { compiler, prover, session }
  | _ => none

def parse? (text : String) : Option Settings :=
  (Json.parse? text).bind ofJson?

end Settings

end Ergo
