import Ergo.Linear.Elimination
import Ergo.Proofs.Linear.Row

/-!
Elimination decides whether rows have a common point. Where rows hold at a point of any ordered
field, what is left of them holds at the point without its first value; and from a rational point at
which that holds, a value of the first unknown is computed. So a system has a real solution just if
it has a rational one, and then one is found.
-/

namespace Ergo.Linear

section Between

variable {values lowers uppers : List Rat} {value : Rat}

theorem exists_greatest_of_mem (member : value ∈ values) :
    ∃ greatest, values.maxOn? id = some greatest ∧ value ≤ greatest :=
  ⟨_, (Option.some_get (List.isSome_maxOn?_of_mem member)).symm,
    List.le_apply_get_maxOn?_of_mem (f := id) member⟩

theorem exists_least_of_mem (member : value ∈ values) :
    ∃ least, values.minOn? id = some least ∧ least ≤ value :=
  ⟨_, (Option.some_get (List.isSome_minOn?_of_mem member)).symm,
    List.apply_get_minOn?_le_of_mem (f := id) member⟩

theorem lt_between_or_midpoint_le (member : value ∈ lowers) :
    value < between lowers uppers ∨
      ∃ upper ∈ uppers, (value + upper) / 2 ≤ between lowers uppers := by
  obtain ⟨greatest, isGreatest, le⟩ := exists_greatest_of_mem member
  cases isLeast : uppers.minOn? id with
  | none =>
      simp only [between, isGreatest, isLeast]
      exact .inl (by linarith)
  | some least =>
      simp only [between, isGreatest, isLeast]
      exact .inr ⟨least, List.minOn?_mem isLeast, by linarith⟩

theorem between_lt_or_le_midpoint (member : value ∈ uppers) :
    between lowers uppers < value ∨
      ∃ lower ∈ lowers, between lowers uppers ≤ (lower + value) / 2 := by
  obtain ⟨least, isLeast, le⟩ := exists_least_of_mem member
  cases isGreatest : lowers.maxOn? id with
  | none =>
      simp only [between, isGreatest, isLeast]
      exact .inl (by linarith)
  | some greatest =>
      simp only [between, isGreatest, isLeast]
      exact .inr ⟨greatest, List.maxOn?_mem isGreatest, by linarith⟩

end Between

variable {K : Type*} [Field K] [LinearOrder K] [IsStrictOrderedRing K]

section Steps

variable {equation row lower upper : Row} {rows : List Row} {value : K} {point : List K}

theorem Row.met_cancel (pivot : equation.form.head ≠ 0)
    (root : equation.form.valueAt (value :: point) = 0) :
    (equation.cancel row).Met point ↔ row.Met (value :: point) := by
  have absent : (row.form.subtract
      (equation.form.scale (row.form.head / equation.form.head))).head = 0 := by
    simp [div_mul_cancel₀ _ pivot]
  rw [Met, cancel, Form.valueAt_tail absent value, Form.valueAt_subtract, Form.valueAt_scale, root,
    mul_zero, sub_zero, Met]

omit [IsStrictOrderedRing K] in
theorem Row.met_tail (absent : row.form.head = 0) (value : K) :
    row.tail.Met point ↔ row.Met (value :: point) := by
  rw [Met, tail, Form.valueAt_tail absent value, Met]

theorem Row.met_cons_of_pos (positive : 0 < row.form.head) :
    row.Met (value :: point) ↔ row.demand.Met (value - row.form.rootAt point) := by
  rw [Met, Form.valueAt_cons_eq_mul positive.ne', Demand.met_mul (by exact_mod_cast positive)]

theorem Row.met_cons_of_neg (negative : row.form.head < 0) :
    row.Met (value :: point) ↔ row.demand.Met (row.form.rootAt point - value) := by
  have turned : (row.form.head : K) * (value - row.form.rootAt point) =
      -row.form.head * (row.form.rootAt point - value) := by ring
  have positive : (0 : K) < -row.form.head := by
    rw [neg_pos]
    exact_mod_cast negative
  rw [Met, Form.valueAt_cons_eq_mul negative.ne, turned, Demand.met_mul positive]

/-- Two bounds joined compare the values of the unknown at which each is reached. -/
theorem Row.met_join (positive : 0 < lower.form.head) (negative : upper.form.head < 0) :
    (lower.join upper).Met point ↔
      (lower.demand.join upper.demand).Met
        (upper.form.rootAt point - lower.form.rootAt point) := by
  have absent : ((lower.form.scale (-upper.form.head)).add
      (upper.form.scale lower.form.head)).head = 0 := by
    simp only [Form.head_add, Form.head_scale]
    ring
  have joined : ((lower.form.scale (-upper.form.head)).add
        (upper.form.scale lower.form.head)).tail.valueAt point =
      (lower.form.head * -upper.form.head : K) *
        (upper.form.rootAt point - lower.form.rootAt point) := by
    rw [Form.valueAt_tail absent 0, Form.valueAt_add, Form.valueAt_scale, Form.valueAt_scale,
      Form.valueAt_cons_eq_mul positive.ne', Form.valueAt_cons_eq_mul negative.ne]
    push_cast
    ring
  have factorPositive : (0 : K) < lower.form.head * -upper.form.head :=
    mul_pos (by exact_mod_cast positive) (neg_pos.mpr (by exact_mod_cast negative))
  rw [Met, join, joined, Demand.met_mul factorPositive]

theorem mem_project_iff : row ∈ project rows ↔
    (∃ level ∈ rows, level.form.head = 0 ∧ row = level.tail) ∨
      ∃ lower ∈ rows, 0 < lower.form.head ∧ ∃ upper ∈ rows, upper.form.head < 0 ∧
        row = lower.join upper := by
  simp only [project, lowerBounds, upperBounds, List.mem_append, List.mem_map, List.mem_flatMap,
    List.mem_filter, beq_iff_eq, decide_eq_true_eq, and_assoc, eq_comm (a := row)]

theorem met_project (met : ∀ row ∈ rows, row.Met (value :: point)) :
    ∀ row ∈ project rows, row.Met point := by
  intro row member
  rcases mem_project_iff.mp member with
    ⟨level, levelMember, absent, rfl⟩ |
    ⟨lower, lowerMember, positive, upper, upperMember, negative, rfl⟩
  · exact (Row.met_tail absent value).mpr (met level levelMember)
  · rw [Row.met_join positive negative, ← sub_add_sub_cancel' value]
    exact ((Row.met_cons_of_pos positive).mp (met lower lowerMember)).join
      ((Row.met_cons_of_neg negative).mp (met upper upperMember))

end Steps

section Points

variable {rows : List Row} {row equation lower upper : Row} {point : List Rat} {dimension : Nat}

theorem pivot?_eq_none_iff :
    pivot? rows = none ↔ ∀ row ∈ rows, row.form.head ≠ 0 → row.demand ≠ .zero := by
  simp only [pivot?, List.find?_eq_none, Bool.and_eq_true, beq_iff_eq, bne_iff_ne]
  exact forall₂_congr fun row _ => by tauto

theorem of_pivot? (found : pivot? rows = some equation) :
    equation ∈ rows ∧ equation.demand = .zero ∧ equation.form.head ≠ 0 :=
  ⟨List.mem_of_find?_eq_some found, by simpa using List.find?_some found⟩

/-- A lower bound holds at the value that is lifted: it lies above the bound, or at least as far as
half the way to some upper bound. -/
theorem met_lift_of_pos (noPivot : pivot? rows = none) (member : lower ∈ rows)
    (positive : 0 < lower.form.head) (met : ∀ row ∈ project rows, row.Met point) :
    lower.Met (lift rows point :: point) := by
  have demanded := pivot?_eq_none_iff.mp noPivot lower member positive.ne'
  rw [Row.met_cons_of_pos positive, Form.rootAt_rat, lift]
  have listed : lower.form.root point ∈ (lowerBounds rows).map (·.form.root point) :=
    List.mem_map_of_mem (by simpa [lowerBounds] using ⟨member, positive⟩)
  rcases lt_between_or_midpoint_le listed with above | ⟨_, reached, above⟩
  · exact Demand.met_of_pos demanded (sub_pos.mpr above)
  · obtain ⟨upper, isUpper, rfl⟩ := List.mem_map.mp reached
    obtain ⟨upperMember, negative⟩ : upper ∈ rows ∧ upper.form.head < 0 := by
      simpa [upperBounds] using isUpper
    have joined := met _ (mem_project_iff.mpr
      (.inr ⟨lower, member, positive, upper, upperMember, negative, rfl⟩))
    rw [Row.met_join positive negative, Form.rootAt_rat, Form.rootAt_rat] at joined
    exact (joined.of_join_left demanded).of_half_le demanded (by linarith)

theorem met_lift_of_neg (noPivot : pivot? rows = none) (member : upper ∈ rows)
    (negative : upper.form.head < 0) (met : ∀ row ∈ project rows, row.Met point) :
    upper.Met (lift rows point :: point) := by
  have demanded := pivot?_eq_none_iff.mp noPivot upper member negative.ne
  rw [Row.met_cons_of_neg negative, Form.rootAt_rat, lift]
  have listed : upper.form.root point ∈ (upperBounds rows).map (·.form.root point) :=
    List.mem_map_of_mem (by simpa [upperBounds] using ⟨member, negative⟩)
  rcases between_lt_or_le_midpoint listed with below | ⟨_, reached, below⟩
  · exact Demand.met_of_pos demanded (sub_pos.mpr below)
  · obtain ⟨lower, isLower, rfl⟩ := List.mem_map.mp reached
    obtain ⟨lowerMember, positive⟩ : lower ∈ rows ∧ 0 < lower.form.head := by
      simpa [lowerBounds] using isLower
    have joined := met _ (mem_project_iff.mpr
      (.inr ⟨lower, lowerMember, positive, upper, member, negative, rfl⟩))
    rw [Row.met_join positive negative, Form.rootAt_rat, Form.rootAt_rat] at joined
    exact (joined.of_join_right demanded).of_half_le demanded (by linarith)

theorem met_lift (noPivot : pivot? rows = none) (met : ∀ row ∈ project rows, row.Met point) :
    ∀ row ∈ rows, row.Met (lift rows point :: point) := by
  intro row member
  rcases lt_trichotomy row.form.head 0 with negative | absent | positive
  · exact met_lift_of_neg noPivot member negative met
  · rw [← Row.met_tail absent]
    exact met _ (mem_project_iff.mpr (.inl ⟨row, member, absent, rfl⟩))
  · exact met_lift_of_pos noPivot member positive met

theorem met_root (pivot : equation.form.head ≠ 0)
    (met : ∀ row ∈ rows.map equation.cancel, row.Met point) :
    ∀ row ∈ rows, row.Met (equation.form.root point :: point) := by
  intro row member
  have root : equation.form.valueAt (equation.form.root point :: point) = 0 := by
    rw [Form.valueAt_cons_eq_mul pivot, Form.rootAt_rat, sub_self, mul_zero]
  exact (Row.met_cancel pivot root).mp (met _ (List.mem_map_of_mem member))

theorem met_iff_met_filter {point : List K} :
    (∀ row ∈ rows, row.Met point) ↔ ∀ row ∈ rows.filter (!·.isTrivial), row.Met point := by
  constructor
  · exact fun met row member => met row (List.mem_of_mem_filter member)
  · intro met row member
    cases trivial : row.isTrivial with
    | true => exact Row.met_of_isTrivial trivial point
    | false => exact met row (List.mem_filter.mpr ⟨member, by simp [trivial]⟩)

theorem solve?_sound (found : solve? dimension rows = some point) :
    point.length = dimension ∧ ∀ row ∈ rows, row.Met point := by
  induction dimension generalizing rows point with
  | zero =>
      simp only [solve?, List.all_eq_true, Row.holdsAt_iff_met, Option.ite_none_right_eq_some,
        Option.some.injEq] at found
      obtain ⟨met, rfl⟩ := found
      exact ⟨rfl, met⟩
  | succ dimension induction =>
      -- The value of the first unknown is put in front of a point at which the rest was solved.
      rw [met_iff_met_filter]
      simp only [solve?] at found
      split at found
      · next equation isPivot =>
          obtain ⟨later, laterFound, rfl⟩ := Option.map_eq_some_iff.mp found
          obtain ⟨length, met⟩ := induction laterFound
          exact ⟨by simp [length], met_root (of_pivot? isPivot).2.2 met⟩
      · next noPivot =>
          obtain ⟨later, laterFound, rfl⟩ := Option.map_eq_some_iff.mp found
          obtain ⟨length, met⟩ := induction laterFound
          exact ⟨by simp [length], met_lift noPivot met⟩

theorem solve?_complete {point : List K} (length : point.length = dimension)
    (met : ∀ row ∈ rows, row.Met point) : (solve? dimension rows).isSome = true := by
  induction dimension generalizing rows point with
  | zero =>
      obtain rfl := List.length_eq_zero_iff.mp length
      have holds : ∀ row ∈ rows, row.holdsAt [] = true := fun row member =>
        Row.holdsAt_iff_met.mpr (Row.met_cast (K := K) |>.mp (met row member))
      simp [solve?, List.all_eq_true.mpr holds]
  | succ dimension induction =>
      obtain ⟨value, later, rfl⟩ := List.exists_cons_of_length_eq_add_one length
      rw [met_iff_met_filter] at met
      simp only [solve?]
      split
      · next equation isPivot =>
          obtain ⟨isRow, demandsZero, pivot⟩ := of_pivot? isPivot
          have root : equation.form.valueAt (value :: later) = 0 := by
            simpa [Row.Met, demandsZero, Demand.Met] using met equation isRow
          rw [Option.isSome_map]
          refine induction (by simpa using length) ?_
          rw [List.forall_mem_map]
          exact fun row member => (Row.met_cancel pivot root).mpr (met row member)
      · rw [Option.isSome_map]
        exact induction (by simpa using length) (met_project met)

end Points

end Ergo.Linear
