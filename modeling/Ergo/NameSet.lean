/-!
Sets of names that remember the order in which the names were first added.
-/

namespace Ergo

structure NameSet where
  names : List String
  nodup : names.Nodup := by simp
  deriving Repr

namespace NameSet

def empty : NameSet := { names := [] }

def contains (set : NameSet) (name : String) : Bool :=
  set.names.contains name

instance : Membership String NameSet where
  mem set name := name ∈ set.names

theorem mem_iff_mem_names {set : NameSet} {name : String} :
    name ∈ set ↔ name ∈ set.names := Iff.rfl

@[simp] theorem contains_iff_mem {set : NameSet} {name : String} :
    set.contains name = true ↔ name ∈ set := by
  simp [contains, mem_iff_mem_names]

instance (name : String) (set : NameSet) : Decidable (name ∈ set) :=
  decidable_of_iff _ contains_iff_mem

def insert (set : NameSet) (name : String) : NameSet :=
  if absent : set.contains name then set
  else
    { names := set.names ++ [name]
      nodup := by
        have outside : name ∉ set.names := by simpa [contains] using absent
        rw [List.nodup_append]
        refine ⟨set.nodup, by simp, ?_⟩
        intro first firstMember second secondMember
        simp only [List.mem_singleton] at secondMember
        subst secondMember
        exact fun same => outside (same ▸ firstMember) }

@[simp] theorem not_mem_empty (name : String) : name ∉ empty := by
  simp [mem_iff_mem_names, empty]

@[simp] theorem mem_insert {set : NameSet} {added name : String} :
    name ∈ set.insert added ↔ name ∈ set ∨ name = added := by
  unfold insert
  split
  · next present =>
      have member : added ∈ set := contains_iff_mem.mp present
      constructor
      · exact Or.inl
      · rintro (inside | rfl)
        · exact inside
        · exact member
  · simp [mem_iff_mem_names]

def insertAll (set : NameSet) (names : List String) : NameSet :=
  names.foldl insert set

@[simp] theorem mem_insertAll {set : NameSet} {added : List String} {name : String} :
    name ∈ set.insertAll added ↔ name ∈ set ∨ name ∈ added := by
  induction added generalizing set with
  | nil => simp [insertAll]
  | cons first rest induction =>
      have step : set.insertAll (first :: rest) = (set.insert first).insertAll rest := rfl
      rw [step, induction, mem_insert, List.mem_cons, or_assoc]

theorem insertAll_eq_self {set : NameSet} {added : List String}
    (present : ∀ name ∈ added, name ∈ set) : set.insertAll added = set := by
  induction added with
  | nil => rfl
  | cons first rest induction =>
      rw [List.forall_mem_cons] at present
      have step : set.insert first = set := by
        rw [insert, dif_pos (contains_iff_mem.mpr present.1)]
      rw [insertAll, List.foldl_cons, step]
      exact induction present.2

theorem insertAll_append (set : NameSet) (first second : List String) :
    set.insertAll (first ++ second) = (set.insertAll first).insertAll second :=
  List.foldl_append

def ofList (names : List String) : NameSet :=
  empty.insertAll names

@[simp] theorem mem_ofList {names : List String} {name : String} :
    name ∈ ofList names ↔ name ∈ names := by
  simp [ofList]

def size (set : NameSet) : Nat := set.names.length

def isEmpty (set : NameSet) : Bool := set.names.isEmpty

end NameSet

end Ergo
