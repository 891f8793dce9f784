import Ergo.Text.CaseMapping

/-!
Settings of the compiler of arguments, of the prover and of sessions. Times are in milliseconds.
-/

namespace Ergo

/-- How an argument is recognized as a curated one. -/
inductive CaseMode
  | structural
  | keyword
  | disabled
  deriving DecidableEq, Repr

/-- What becomes of a conclusion that has no translation. -/
inductive ConclusionPolicy
  | reject
  | assumeTrue
  deriving DecidableEq, Repr

structure CompilerSettings where
  caseMode : CaseMode
  conclusionPolicy : ConclusionPolicy
  /-- Phrases that relate things, besides the known ones. -/
  phrases : List String
  deriving DecidableEq, Repr

structure ProverSettings where
  timeout : Nat
  /-- The most ground instances that one goal may have. -/
  instanceLimit : Nat
  deriving DecidableEq, Repr

structure SessionSettings where
  timeout : Nat
  deriving DecidableEq, Repr

structure Settings where
  compiler : CompilerSettings
  prover : ProverSettings
  session : SessionSettings
  deriving DecidableEq, Repr

def CompilerSettings.default : CompilerSettings :=
  { caseMode := .structural, conclusionPolicy := .reject, phrases := [] }

def CompilerSettings.withPhrase (settings : CompilerSettings) (phrase : String) :
    CompilerSettings :=
  { settings with phrases := settings.phrases ++ [Text.lower phrase] }

def ProverSettings.default : ProverSettings :=
  { timeout := 5000, instanceLimit := 10000 }

def SessionSettings.default : SessionSettings :=
  { timeout := 5000 }

def Settings.default : Settings :=
  { compiler := .default, prover := .default, session := .default }

end Ergo
