import Ergo.FreshName
import Mathlib.Data.List.Nodup
import Mathlib.Data.List.Perm.Subperm
import Std.Data.String.ToNat

/-!
Fresh names are fresh: there is one candidate more than there are names taken, and the candidates
differ. So a search that goes on as long as candidates are taken ends (`findsName_iff`).
-/

namespace Ergo

theorem numberedName_injective (base : String) : Function.Injective (numberedName base) := by
  intro first second same
  simpa [numberedName] using same

theorem numberedName_ne (base : String) (number : Nat) : numberedName base number ≠ base := by
  intro same
  have lengths := congrArg String.length same
  have mark : (toString "_").length = 1 := rfl
  have start : (toString base).length = base.length := rfl
  simp only [numberedName, String.length_append, mark, start] at lengths
  omega

theorem nodup_nameCandidates (base : String) (taken : List String) :
    (nameCandidates base taken).Nodup := by
  rw [nameCandidates, List.nodup_cons]
  constructor
  · simp only [List.mem_map, not_exists, not_and]
    exact fun index _ same => numberedName_ne base (index + 2) same
  · refine List.Nodup.map ?_ List.nodup_range
    intro first second same
    have numbers := numberedName_injective base same
    omega

theorem length_nameCandidates (base : String) (taken : List String) :
    (nameCandidates base taken).length = taken.length + 1 := by
  simp [nameCandidates]

/-- Some candidate is free: not all of them are among the fewer names taken. -/
theorem find?_nameCandidates (base : String) (taken : List String) :
    (nameCandidates base taken).find? (fun name => !taken.contains name) =
      some (freshName base taken) := by
  cases found : (nameCandidates base taken).find? fun name => !taken.contains name with
  | none =>
      have inside : nameCandidates base taken ⊆ taken := by
        intro name member
        simpa using List.find?_eq_none.mp found name member
      have bound := ((nodup_nameCandidates base taken).subperm inside).length_le
      rw [length_nameCandidates] at bound
      omega
  | some name => rw [freshName, found, Option.getD_some]

theorem freshName_not_mem (base : String) (taken : List String) :
    freshName base taken ∉ taken := by
  have free := List.find?_some (find?_nameCandidates base taken)
  simpa using free

/-! ## The search -/

/-- The name that is tried as that of this number: the base itself comes first. -/
def nameCandidate (base : String) (number : Nat) : String :=
  if number = 1 then base else numberedName base number

/-- The search that tries one candidate after the other, from that of `number` on and without a bound,
ends with the name. -/
inductive FindsName (base : String) (taken : List String) : Nat → String → Prop
  | free {number : Nat} : nameCandidate base number ∉ taken →
      FindsName base taken number (nameCandidate base number)
  | taken {number : Nat} {name : String} : nameCandidate base number ∈ taken →
      FindsName base taken (number + 1) name → FindsName base taken number name

theorem nameCandidates_eq_map (base : String) (taken : List String) :
    nameCandidates base taken = (List.range' 1 (taken.length + 1)).map (nameCandidate base) := by
  rw [nameCandidates, List.range'_succ, List.map_cons, List.range'_eq_map_range, List.map_map]
  refine congrArg (base :: ·) (List.map_congr_left fun index _ => ?_)
  rw [Function.comp_apply, nameCandidate, if_neg (by omega)]
  congr 1
  omega

theorem findsName_of_find? {base name : String} {taken : List String} {number count : Nat}
    (found : ((List.range' number count).map (nameCandidate base)).find?
      (fun name => !taken.contains name) = some name) : FindsName base taken number name := by
  induction count generalizing number with
  | zero => cases found
  | succ count induction =>
      rw [List.range'_succ, List.map_cons, List.find?_cons] at found
      split at found
      · next isFree =>
          cases found
          exact .free (by simpa using isFree)
      · next isTaken => exact .taken (by simpa using isTaken) (induction found)

theorem FindsName.unique {base first second : String} {taken : List String} {number : Nat}
    (finds : FindsName base taken number first) (otherwise : FindsName base taken number second) :
    first = second := by
  induction finds with
  | free isFree =>
      cases otherwise with
      | free => rfl
      | taken isTaken _ => exact absurd isTaken isFree
  | taken isTaken _ induction =>
      cases otherwise with
      | free isFree => exact absurd isTaken isFree
      | taken _ rest => exact induction rest

/-- The search ends, with the fresh name. -/
theorem findsName_iff {base name : String} {taken : List String} :
    FindsName base taken 1 name ↔ name = freshName base taken := by
  have finds : FindsName base taken 1 (freshName base taken) := by
    have found := find?_nameCandidates base taken
    rw [nameCandidates_eq_map] at found
    exact findsName_of_find? found
  constructor
  · intro otherwise
    exact otherwise.unique finds
  · rintro rfl
    exact finds

end Ergo
