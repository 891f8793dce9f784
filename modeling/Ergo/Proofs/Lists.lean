import Mathlib.Data.List.Forall2

/-!
Lists whose members are related one by one, and look-ups in association lists.
-/

namespace Ergo

universe u

/-! ## Lists in step -/

section Related

variable {first second : Type} {related implied : first → second → Prop}
  {members : List first} {others : List second}

theorem forall₂_imp_of_mem (each : List.Forall₂ related members others)
    (imp : ∀ member ∈ members, ∀ other, related member other → implied member other) :
    List.Forall₂ implied members others := by
  induction each with
  | nil => exact .nil
  | cons headRelated _ induction =>
      exact .cons (imp _ (by simp) _ headRelated)
        (induction fun member inside => imp member (List.mem_cons_of_mem _ inside))

theorem exists_mem_right_of_forall₂ (each : List.Forall₂ related members others)
    {member : first} (inside : member ∈ members) : ∃ other ∈ others, related member other := by
  induction each with
  | nil => simp at inside
  | cons headRelated _ induction =>
      rcases List.mem_cons.mp inside with rfl | inTail
      · exact ⟨_, by simp, headRelated⟩
      · obtain ⟨other, member, related⟩ := induction inTail
        exact ⟨other, List.mem_cons_of_mem _ member, related⟩

theorem exists_mem_left_of_forall₂ (each : List.Forall₂ related members others)
    {other : second} (inside : other ∈ others) : ∃ member ∈ members, related member other :=
  exists_mem_right_of_forall₂ each.flip inside

theorem exists_getElem?_of_forall₂ (each : List.Forall₂ related members others) {index : Nat}
    {member : first} (found : members[index]? = some member) :
    ∃ other, others[index]? = some other ∧ related member other := by
  induction each generalizing index with
  | nil => cases found
  | @cons _ other _ _ headRelated _ induction =>
      cases index with
      | zero =>
          obtain rfl := Option.some.inj found
          exact ⟨other, rfl, headRelated⟩
      | succ index => exact induction found

theorem forall₂_iff_eq_map {map : first → second}
    (each : ∀ member ∈ members, ∀ other, related member other ↔ other = map member) :
    List.Forall₂ related members others ↔ others = members.map map := by
  induction members generalizing others with
  | nil => rw [List.forall₂_nil_left_iff, List.map_nil]
  | cons member members induction =>
      obtain ⟨own, later⟩ := List.forall_mem_cons.mp each
      rw [List.map_cons, List.forall₂_cons_left_iff]
      constructor
      · rintro ⟨other, others, isRelated, laterRelated, rfl⟩
        rw [(own other).mp isRelated, (induction later).mp laterRelated]
      · rintro rfl
        exact ⟨_, _, (own _).mpr rfl, (induction later).mpr rfl, rfl⟩

theorem flatMap_eq_flatMap_of_forall₂ {value : Type} {values : first → List value}
    {otherValues : second → List value} (each : List.Forall₂ related members others)
    (same : ∀ member ∈ members, ∀ other, related member other → values member = otherValues other) :
    members.flatMap values = others.flatMap otherValues := by
  induction each with
  | nil => rfl
  | cons headRelated _ induction =>
      rw [List.flatMap_cons, List.flatMap_cons, same _ (by simp) _ headRelated,
        induction fun member inside => same member (List.mem_cons_of_mem _ inside)]

end Related

theorem all_eq_all_of_mem {item : Type} {items : List item} {test other : item → Bool}
    (same : ∀ item ∈ items, test item = other item) : items.all test = items.all other := by
  rw [Bool.eq_iff_iff, List.all_eq_true, List.all_eq_true]
  exact forall₂_congr fun item member => by rw [same item member]

theorem any_eq_any_of_mem {item : Type} {items : List item} {test other : item → Bool}
    (same : ∀ item ∈ items, test item = other item) : items.any test = items.any other := by
  rw [Bool.eq_iff_iff, List.any_eq_true, List.any_eq_true]
  exact exists_congr fun item => and_congr_right fun member => by rw [same item member]

/-! ## Look-ups -/

theorem mem_of_lookup_eq_some {key value : Type} [BEq key] [LawfulBEq key]
    {pairs : List (key × value)} {name : key} {found : value}
    (looked : pairs.lookup name = some found) : (name, found) ∈ pairs := by
  obtain ⟨front, later, rfl, _⟩ := List.lookup_eq_some_iff.mp looked
  simp

theorem findSome?_eq_some_of_unique {item value : Type} {items : List item}
    {find? : item → Option value} {first : item} {found : value} (listed : first ∈ items)
    (isFound : find? first = some found)
    (unique : ∀ other ∈ items, ∀ value, find? other = some value → other = first) :
    items.findSome? find? = some found := by
  have isSome : (items.findSome? find?).isSome = true :=
    List.findSome?_isSome_iff.mpr ⟨first, listed, by rw [isFound]; rfl⟩
  obtain ⟨value, result⟩ := Option.isSome_iff_exists.mp isSome
  obtain ⟨other, otherListed, otherFound⟩ := List.exists_of_findSome?_eq_some result
  obtain rfl := unique other otherListed value otherFound
  rw [result, ← otherFound, isFound]

/-- Along places in their order, the first find is the one with nothing found before it. -/
theorem findSome?_eq_some_iff_of_sorted {value : Type} {places : List Nat}
    {find? : Nat → Option value} {found : value} (sorted : places.Pairwise (· < ·)) :
    places.findSome? find? = some found ↔
      ∃ place ∈ places, find? place = some found ∧
        ∀ earlier ∈ places, earlier < place → find? earlier = none := by
  induction places with
  | nil => simp
  | cons first places induction =>
      obtain ⟨isLeast, laterSorted⟩ := List.pairwise_cons.mp sorted
      rw [List.findSome?_cons]
      cases here : find? first with
      | some value =>
          dsimp only
          constructor
          · rintro ⟨⟩
            refine ⟨first, List.mem_cons_self, here, fun earlier listed before => ?_⟩
            rcases List.mem_cons.mp listed with rfl | inLater
            · exact absurd before (Nat.lt_irrefl _)
            · exact absurd (isLeast earlier inLater) (Nat.lt_asymm before)
          · rintro ⟨place, listed, isFound, missing⟩
            rcases List.mem_cons.mp listed with rfl | inLater
            · exact here.symm.trans isFound
            · have absent := missing first List.mem_cons_self (isLeast place inLater)
              cases here.symm.trans absent
      | none =>
          dsimp only
          rw [induction laterSorted]
          constructor
          · rintro ⟨place, listed, isFound, missing⟩
            refine ⟨place, List.mem_cons_of_mem _ listed, isFound, fun earlier earlierListed before => ?_⟩
            rcases List.mem_cons.mp earlierListed with rfl | inLater
            · exact here
            · exact missing earlier inLater before
          · rintro ⟨place, listed, isFound, missing⟩
            rcases List.mem_cons.mp listed with rfl | inLater
            · cases here.symm.trans isFound
            · exact ⟨place, inLater, isFound,
                fun earlier inLater => missing earlier (List.mem_cons_of_mem _ inLater)⟩

theorem lookup_map_values {terms : Type} {values : Type u} (put : terms → values)
    (pairs : List (String × terms)) (name : String) :
    (pairs.map fun pair => (pair.1, put pair.2)).lookup name = (pairs.lookup name).map put := by
  induction pairs with
  | nil => rfl
  | cons pair pairs induction =>
      rcases pair with ⟨key, term⟩
      by_cases same : name = key
      · simp [same]
      · simp [List.lookup_cons, beq_false_of_ne same, induction]

theorem lookup_map_of_mem {key value : Type} [BEq key] [LawfulBEq key] {names : List key} {name : key}
    (member : name ∈ names) (values : key → value) :
    (names.map fun other => (other, values other)).lookup name = some (values name) := by
  induction names with
  | nil => cases member
  | cons first later induction =>
      rw [List.map_cons, List.lookup_cons]
      by_cases same : name = first
      · rw [same, beq_self_eq_true]
      · rw [beq_false_of_ne same]
        exact induction ((List.mem_cons.mp member).resolve_left same)

/-- Of the names that have values, each is listed with what is shown of its value. -/
theorem map_fst_filterMap {key value shown : Type} (value? : key → Option value)
    (render : value → shown) (names : List key) :
    (names.filterMap fun name => (value? name).map fun value => (name, render value)).map Prod.fst =
      names.filter fun name => (value? name).isSome := by
  rw [List.map_filterMap, ← List.filterMap_eq_filter]
  refine List.filterMap_congr fun name _ => ?_
  cases found : value? name <;> simp [Option.guard, found]

end Ergo
