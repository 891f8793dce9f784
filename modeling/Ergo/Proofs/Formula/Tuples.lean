import Ergo.Proofs.Formula.Expansion
import Mathlib.Algebra.Order.BigOperators.Group.List
import Mathlib.Algebra.Order.Ring.Nat
import Mathlib.Data.List.Nodup

/-!
Tuples over ranges of names. The choices from ranges without repetition are all their tuples, each once
and in lexicographic order (`listsTuples_choices`), and their number is counted unless the product of
the sizes passes a word on the way (`countChoices?_eq_some`, `countChoices?_eq_none`).
-/

namespace Ergo

variable {ranges tuples : List (List String)} {names others : List String}

/-! ## Order -/

/-- At the first place where the two tuples differ, the member of the first stands earlier in the range
of the place. -/
def Precedes : List (List String) → List String → List String → Prop
  | range :: ranges, name :: names, other :: others =>
      range.idxOf name < range.idxOf other ∨ name = other ∧ Precedes ranges names others
  | _, _, _ => False

theorem not_precedes_self (ranges : List (List String)) (names : List String) :
    ¬ Precedes ranges names names := by
  induction ranges generalizing names with
  | nil => exact id
  | cons range ranges induction =>
      cases names with
      | nil => exact id
      | cons name names => simp [Precedes, induction]

/-- The tuples with one member of each range, each of them once and in lexicographic order. -/
structure ListsTuples (ranges tuples : List (List String)) : Prop where
  mem_iff : ∀ names, names ∈ tuples ↔ List.Forall₂ (fun name range => name ∈ range) names ranges
  nodup : tuples.Nodup
  ordered : tuples.Pairwise (Precedes ranges)

theorem pairwise_idxOf_lt {range : List String} (nodup : range.Nodup) :
    range.Pairwise fun name other => range.idxOf name < range.idxOf other := by
  rw [List.pairwise_iff_getElem]
  intro first second firstInside secondInside before
  rwa [nodup.idxOf_getElem, nodup.idxOf_getElem]

theorem pairwise_precedes_choices (nodup : ∀ range ∈ ranges, range.Nodup) :
    (choices ranges).Pairwise (Precedes ranges) := by
  induction ranges with
  | nil => simp [choices]
  | cons range ranges induction =>
      obtain ⟨own, later⟩ := List.forall_mem_cons.mp nodup
      rw [choices, List.pairwise_flatMap]
      constructor
      · intro name _
        rw [List.pairwise_map]
        exact (induction later).imp fun precedes => .inr ⟨rfl, precedes⟩
      · refine (pairwise_idxOf_lt own).imp fun earlier => ?_
        simp only [List.forall_mem_map]
        exact fun _ _ _ _ => .inl earlier

theorem listsTuples_choices (nodup : ∀ range ∈ ranges, range.Nodup) :
    ListsTuples ranges (choices ranges) where
  mem_iff _ := mem_choices
  nodup := by
    rw [List.nodup_iff_pairwise_ne]
    refine (pairwise_precedes_choices nodup).imp ?_
    rintro names _ precedes rfl
    exact not_precedes_self ranges names precedes
  ordered := pairwise_precedes_choices nodup

/-! ## Number -/

def sizeProduct (ranges : List (List String)) : Nat :=
  (ranges.map List.length).prod

@[simp] theorem sizeProduct_nil : sizeProduct [] = 1 := rfl

@[simp] theorem sizeProduct_cons (range : List String) (ranges : List (List String)) :
    sizeProduct (range :: ranges) = range.length * sizeProduct ranges := by
  simp [sizeProduct]

theorem sizeProduct_le_pow {bound : Nat} (short : ∀ range ∈ ranges, range.length ≤ bound) :
    sizeProduct ranges ≤ bound ^ ranges.length := by
  have few := List.prod_le_pow_card (ranges.map List.length) bound (List.forall_mem_map.mpr short)
  rwa [List.length_map] at few

theorem length_choices (ranges : List (List String)) :
    (choices ranges).length = sizeProduct ranges := by
  induction ranges with
  | nil => rfl
  | cons range ranges induction =>
      simp only [choices, List.length_flatMap, List.length_map, induction, sizeProduct_cons]
      simp

/-- The product of the sizes of some ranges at the front passes a word. -/
def Overflows (ranges : List (List String)) : Prop :=
  ∃ front, front <+: ranges ∧ countLimit ≤ sizeProduct front

theorem sizeProduct_front_le {front : List (List String)} (isFront : front <+: ranges)
    (nonzero : sizeProduct ranges ≠ 0) : sizeProduct front ≤ sizeProduct ranges := by
  obtain ⟨later, rfl⟩ := isFront
  rw [sizeProduct, List.map_append, List.prod_append] at nonzero
  rw [sizeProduct, sizeProduct, List.map_append, List.prod_append]
  exact Nat.le_mul_of_pos_right _ (Nat.pos_of_ne_zero fun zero => nonzero (by rw [zero, Nat.mul_zero]))

/-- A product that is not zero passes a word if it does so on the way. -/
theorem Overflows.countLimit_le (overflows : Overflows ranges) (nonzero : sizeProduct ranges ≠ 0) :
    countLimit ≤ sizeProduct ranges := by
  obtain ⟨front, isFront, passes⟩ := overflows
  exact Nat.le_trans passes (sizeProduct_front_le isFront nonzero)

/-- Few ranges of few names have few tuples. -/
theorem not_overflows_of_le_pow {bound : Nat} (positive : 0 < bound)
    (short : ∀ range ∈ ranges, range.length ≤ bound) (small : bound ^ ranges.length < countLimit) :
    ¬ Overflows ranges := by
  rintro ⟨front, isFront, passes⟩
  have few : sizeProduct front ≤ bound ^ front.length :=
    sizeProduct_le_pow fun range member => short range (isFront.subset member)
  have shorter : bound ^ front.length ≤ bound ^ ranges.length :=
    Nat.pow_le_pow_right positive isFront.length_le
  omega

section Counting

variable {start : Nat}

theorem foldlM_count_eq_some
    (fits : ∀ front, front <+: ranges → start * sizeProduct front < countLimit) :
    ranges.foldlM (fun count range =>
      let product := count * range.length
      if product < countLimit then some product else none) start =
        some (start * sizeProduct ranges) := by
  induction ranges generalizing start with
  | nil => simp
  | cons range ranges induction =>
      have here : start * range.length < countLimit := by
        simpa using fits [range] (List.prefix_append [range] ranges)
      rw [List.foldlM_cons, if_pos here]
      refine (induction fun front isFront => ?_).trans ?_
      · rw [Nat.mul_assoc, ← sizeProduct_cons]
        exact fits _ ((List.prefix_cons_inj range).mpr isFront)
      · rw [Nat.mul_assoc, ← sizeProduct_cons]

theorem foldlM_count_eq_none {front : List (List String)} (isFront : front <+: ranges)
    (small : start < countLimit) (passes : countLimit ≤ start * sizeProduct front) :
    ranges.foldlM (fun count range =>
      let product := count * range.length
      if product < countLimit then some product else none) start = none := by
  induction ranges generalizing start front with
  | nil =>
      rw [List.prefix_nil.mp isFront, sizeProduct_nil, Nat.mul_one] at passes
      exact absurd passes (Nat.not_le.mpr small)
  | cons range ranges induction =>
      rcases List.prefix_cons_iff.mp isFront with rfl | ⟨later, rfl, isLater⟩
      · rw [sizeProduct_nil, Nat.mul_one] at passes
        exact absurd passes (Nat.not_le.mpr small)
      · rw [sizeProduct_cons, ← Nat.mul_assoc] at passes
        rw [List.foldlM_cons]
        by_cases here : start * range.length < countLimit
        · rw [if_pos here]
          exact induction isLater here passes
        · rw [if_neg here]
          rfl

end Counting

theorem countChoices?_eq_some (fits : ¬ Overflows ranges) :
    countChoices? ranges = some (sizeProduct ranges) := by
  rw [countChoices?, foldlM_count_eq_some, Nat.one_mul]
  intro front isFront
  rw [Nat.one_mul, ← Nat.not_le]
  exact fun passes => fits ⟨front, isFront, passes⟩

theorem countChoices?_eq_none (overflows : Overflows ranges) : countChoices? ranges = none := by
  obtain ⟨front, isFront, passes⟩ := overflows
  refine foldlM_count_eq_none isFront ?_ (by rwa [Nat.one_mul])
  decide

end Ergo
