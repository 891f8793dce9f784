/-!
Verdicts of solvers. A solver that finds a model gives it, and one that finds none may have shown that
there is none or have given up.
-/

namespace Ergo

inductive Verdict (Model : Type)
  | satisfiable (model : Model)
  | unsatisfiable
  | unknown
  deriving DecidableEq, Repr

namespace Verdict

variable {Model Other : Type}

def map (change : Model → Other) : Verdict Model → Verdict Other
  | .satisfiable model => .satisfiable (change model)
  | .unsatisfiable => .unsatisfiable
  | .unknown => .unknown

def model? : Verdict Model → Option Model
  | .satisfiable model => some model
  | _ => none

theorem model?_eq_some_iff {verdict : Verdict Model} {model : Model} :
    verdict.model? = some model ↔ verdict = .satisfiable model := by
  cases verdict <;> simp [model?]

theorem map_eq_satisfiable_iff {change : Model → Other} {verdict : Verdict Model} {model : Other} :
    verdict.map change = .satisfiable model ↔
      ∃ before, verdict = .satisfiable before ∧ change before = model := by
  cases verdict <;> simp [map]

theorem map_eq_unsatisfiable_iff {change : Model → Other} {verdict : Verdict Model} :
    verdict.map change = .unsatisfiable ↔ verdict = .unsatisfiable := by
  cases verdict <;> simp [map]

theorem map_eq_unknown_iff {change : Model → Other} {verdict : Verdict Model} :
    verdict.map change = .unknown ↔ verdict = .unknown := by
  cases verdict <;> simp [map]

theorem isSome_model?_iff {verdict : Verdict Model} (decided : verdict ≠ .unknown) :
    verdict.model?.isSome = true ↔ verdict ≠ .unsatisfiable := by
  cases verdict with
  | satisfiable model => simp [model?]
  | unsatisfiable => simp [model?]
  | unknown => exact absurd rfl decided

end Verdict

end Ergo
