import Mathlib.Data.List.Forall2

/-!
Results of computations that can fail, one after the other and along a list.
-/

namespace Ergo

variable {failure value other : Type}

theorem bind_eq_ok_iff {result : Except failure value} {next : value → Except failure other}
    {final : other} :
    (result >>= next) = .ok final ↔ ∃ middle, result = .ok middle ∧ next middle = .ok final := by
  cases result with
  | error error => simp [bind, Except.bind]
  | ok middle => simp [bind, Except.bind]

theorem map_eq_ok_iff {result : Except failure value} {change : value → other} {final : other} :
    result.map change = .ok final ↔ ∃ middle, result = .ok middle ∧ change middle = final := by
  cases result with
  | error error => simp [Except.map]
  | ok middle => simp [Except.map]

theorem exists_error_iff {result : Except failure value} :
    (∃ error, result = .error error) ↔ ¬ ∃ final, result = .ok final := by
  cases result <;> simp

theorem mapM_eq_ok_iff {read : value → Except failure other} {items : List value}
    {values : List other} :
    items.mapM read = .ok values ↔
      List.Forall₂ (fun item value => read item = .ok value) items values := by
  induction items generalizing values with
  | nil => simp [pure, Except.pure, eq_comm]
  | cons item items induction =>
      simp only [List.mapM_cons, bind_eq_ok_iff, pure, Except.pure, Except.ok.injEq]
      constructor
      · rintro ⟨first, firstRead, later, laterRead, rfl⟩
        exact .cons firstRead (induction.mp laterRead)
      · rintro (_ | ⟨firstRead, laterRead⟩)
        exact ⟨_, firstRead, _, induction.mpr laterRead, rfl⟩

/-! ## What holds of a result -/

/-- The value of the computation satisfies `holds`, or its failure satisfies `fails`. -/
def Meets (holds : value → Prop) (fails : failure → Prop) : Except failure value → Prop
  | .ok final => holds final
  | .error error => fails error

section Meets

variable {holds : value → Prop} {final : other → Prop} {fails refused : failure → Prop}
  {result : Except failure value}

@[simp] theorem meets_ok {read : value} : Meets holds fails (.ok read) ↔ holds read := Iff.rfl

@[simp] theorem meets_error {error : failure} : Meets holds fails (.error error) ↔ fails error :=
  Iff.rfl

theorem Meets.of_eq_ok {read : value} (meets : Meets holds fails result) (same : result = .ok read) :
    holds read := by
  rwa [same] at meets

theorem Meets.of_eq_error {error : failure} (meets : Meets holds fails result)
    (same : result = .error error) : fails error := by
  rwa [same] at meets

theorem Meets.imp {others : value → Prop} (meets : Meets holds fails result)
    (value_imp : ∀ read, holds read → others read) (error_imp : ∀ error, fails error → refused error) :
    Meets others refused result := by
  cases result with
  | error error => exact error_imp error meets
  | ok read => exact value_imp read meets

theorem Meets.bind {next : value → Except failure other} (first : Meets holds fails result)
    (later : ∀ middle, holds middle → Meets final fails (next middle)) :
    Meets final fails (result >>= next) := by
  cases result with
  | error error => exact first
  | ok middle => exact later middle first

theorem Meets.map {change : value → other} (first : Meets holds fails result)
    (later : ∀ middle, holds middle → final (change middle)) : Meets final fails (result.map change) := by
  cases result with
  | error error => exact first
  | ok middle => exact later middle first

theorem meets_mapM {read : value → Except failure other} {items : List value}
    (each : ∀ item ∈ items, Meets (fun _ => True) fails (read item)) :
    Meets (fun _ => True) fails (items.mapM read) := by
  induction items with
  | nil => trivial
  | cons item items induction =>
      obtain ⟨firstMeets, laterMeets⟩ := List.forall_mem_cons.mp each
      rw [List.mapM_cons]
      exact firstMeets.bind fun _ _ => (induction laterMeets).bind fun _ _ => trivial

end Meets

end Ergo
