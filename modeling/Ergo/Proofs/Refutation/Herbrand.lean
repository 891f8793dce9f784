import Ergo.Proofs.Ground.Formula
import Ergo.Proofs.Refutation.Domains

/-!
Structures built from names. For a valuation that takes equality for a congruence, the members of a
sort are the classes of equal names of its domain, and a predicate holds of classes as the valuation
says. Atoms whose names are in the domains keep their truth values (`valuation_herbrand`), and each
member of a sort with a domain has a name there (`exists_name_of_herbrand`).
-/

namespace Ergo

open Ground Structure

/-! ## Sorts of names -/

open Classical in
/-- The sorting under which some names have the sorts that `sorts` gives them, and predicates and
variables those of a theory. -/
noncomputable def Theory.sortingOf (theory : Theory) (named : String → Prop)
    (sorts : String → String) : Sorting where
  sort? name := if named name then some (sorts name) else none
  domain? := theory.domain?
  variableSort := theory.variableSort

theorem Theory.sortingOf_eq_some_iff {theory : Theory} {named : String → Prop}
    {sorts : String → String} {name sortName : String} :
    (theory.sortingOf named sorts).sort? name = some sortName ↔
      named name ∧ sorts name = sortName := by
  simp only [Theory.sortingOf, Option.ite_none_right_eq_some, Option.some.injEq]

noncomputable def Domains.sorting (domains : Domains) (theory : Theory) (sorts : String → String) :
    Sorting :=
  theory.sortingOf (fun name => (sorts name, name) ∈ domains.members) sorts

/-! ## Classes of names -/

variable {values : Atom → Bool}

def Ground.Congruent.classes (congruent : Congruent values) : Setoid String where
  r left right := values (.same left right) = true
  iseqv := ⟨congruent.refl, congruent.symm, congruent.trans⟩

def Ground.Congruent.classOf (congruent : Congruent values) (name : String) :
    Quotient congruent.classes :=
  Quotient.mk congruent.classes name

theorem Ground.Congruent.classOf_eq_iff (congruent : Congruent values) {left right : String} :
    congruent.classOf left = congruent.classOf right ↔ values (.same left right) = true :=
  ⟨fun same => Quotient.exact same, fun equal => Quotient.sound equal⟩

theorem Ground.Congruent.holds_of_classes (congruent : Congruent values) {predicate : String}
    {arguments others : List String}
    (same : arguments.map congruent.classOf = others.map congruent.classOf) :
    values (.holds predicate arguments) = values (.holds predicate others) := by
  apply congruent.holds
  induction arguments generalizing others with
  | nil =>
      rw [List.map_nil, eq_comm, List.map_eq_nil_iff] at same
      subst same
      exact .nil
  | cons argument arguments induction =>
      cases others with
      | nil => simp at same
      | cons other others =>
          rw [List.map_cons, List.map_cons, List.cons.injEq] at same
          exact .cons (congruent.classOf_eq_iff.mp same.1) (induction same.2)

/-! ## The structure -/

/-- The members of a sort are classes of names of its domain; a sort without a domain contains all
classes. -/
def Ground.Congruent.Belongs (congruent : Congruent values) (domains : Domains)
    (sortName : String) (member : Quotient congruent.classes) : Prop :=
  (∃ name ∈ domains.domain sortName, congruent.classOf name = member) ∨
    domains.domain sortName = []

def Ground.Congruent.Carrier (congruent : Congruent values) (domains : Domains)
    (sortName : String) : Type :=
  { member // congruent.Belongs domains sortName member }

def Ground.Congruent.memberClass {congruent : Congruent values} {domains : Domains}
    (element : Σ sortName, congruent.Carrier domains sortName) : Quotient congruent.classes :=
  element.2.1

def herbrand (congruent : Congruent values) (domains : Domains) : Structure.{0} where
  carrier := congruent.Carrier domains
  inhabited sortName := by
    cases names : domains.domain sortName with
    | nil => exact ⟨congruent.classOf "", .inr names⟩
    | cons name later =>
        exact ⟨congruent.classOf name, .inl ⟨name, by simp [names], rfl⟩⟩
  relation predicate elements :=
    ∃ arguments, elements.map Congruent.memberClass = arguments.map congruent.classOf ∧
      values (.holds predicate arguments) = true

section Reading

variable {congruent : Congruent values} {domains : Domains} {sorts : String → String}

def classIn (element : (herbrand congruent domains).Element) : Quotient congruent.classes :=
  Congruent.memberClass element

theorem herbrand_relation {predicate : String}
    {elements : List (herbrand congruent domains).Element} :
    (herbrand congruent domains).relation predicate elements ↔
      ∃ arguments, elements.map classIn = arguments.map congruent.classOf ∧
        values (.holds predicate arguments) = true :=
  Iff.rfl

/-- Each name stands for an element of its sort, and a name of a domain for its class. -/
structure NamesClasses (sorts : String → String)
    (reading : (herbrand congruent domains).Reading) : Prop where
  sortsOf : ∀ name, (reading name).1 = sorts name
  classes : ∀ name, (sorts name, name) ∈ domains.members →
    classIn (reading name) = congruent.classOf name

theorem exists_namesClasses (congruent : Congruent values) (domains : Domains)
    (sorts : String → String) :
    ∃ reading : (herbrand congruent domains).Reading, NamesClasses sorts reading := by
  have each : ∀ name, ∃ element : (herbrand congruent domains).Element,
      element.1 = sorts name ∧
        ((sorts name, name) ∈ domains.members → classIn element = congruent.classOf name) := by
    intro name
    by_cases listed : (sorts name, name) ∈ domains.members
    · have belongs : congruent.Belongs domains (sorts name) (congruent.classOf name) :=
        .inl ⟨name, Domains.mem_domain.mpr listed, rfl⟩
      exact ⟨⟨sorts name, congruent.classOf name, belongs⟩, rfl, fun _ => rfl⟩
    · obtain ⟨element, elementSort⟩ := (herbrand congruent domains).exists_element (sorts name)
      exact ⟨element, elementSort, fun inside => absurd inside listed⟩
  choose reading sortsOf classesOf using each
  exact ⟨reading, sortsOf, classesOf⟩

variable {reading : (herbrand congruent domains).Reading}

theorem herbrand_element_ext {first second : (herbrand congruent domains).Element}
    (sameSort : first.1 = second.1) (sameClass : classIn first = classIn second) :
    first = second := by
  rcases first with ⟨sortName, member⟩
  rcases second with ⟨otherSort, other⟩
  cases sameSort
  exact congrArg (Sigma.mk sortName) (Subtype.ext sameClass)

/-- Each member of a sort with a domain has a name there. -/
theorem exists_name_of_herbrand (names : NamesClasses sorts reading)
    {element : (herbrand congruent domains).Element}
    (sortsMembers : ∀ sortName name, (sortName, name) ∈ domains.members → sorts name = sortName)
    (inhabited : ∃ name, (element.1, name) ∈ domains.members) :
    ∃ name ∈ domains.domain element.1, reading name = element := by
  rcases element with ⟨sortName, member, belongs⟩
  rcases belongs with ⟨name, inDomain, sameClass⟩ | empty
  · refine ⟨name, inDomain, ?_⟩
    have listed := Domains.mem_domain.mp inDomain
    have isSorted := sortsMembers sortName name listed
    apply herbrand_element_ext
    · exact (names.sortsOf name).trans isSorted
    · rw [names.classes name (isSorted ▸ listed)]
      exact sameClass
  · obtain ⟨name, listed⟩ := inhabited
    have inDomain := Domains.mem_domain.mpr listed
    rw [empty] at inDomain
    exact absurd inDomain (by simp)

/-- Atoms over the names of the domains keep their truth values. -/
theorem valuation_herbrand (names : NamesClasses sorts reading)
    {theory : Theory} {atom : Atom}
    (isSorted : atom.WellSorted (domains.sorting theory sorts)) :
    valuation reading atom = values atom := by
  rw [Bool.eq_iff_iff]
  cases atom with
  | holds predicate arguments =>
      have classes : (arguments.map reading).map classIn = arguments.map congruent.classOf := by
        rw [List.map_map]
        apply List.map_congr_left
        intro argument member
        obtain ⟨domain, _, sorts⟩ := isSorted
        obtain ⟨sortName, _, found⟩ := exists_mem_right_of_forall₂ sorts member
        exact names.classes argument (Theory.sortingOf_eq_some_iff.mp found).1
      rw [valuation_holds, herbrand_relation]
      constructor
      · rintro ⟨others, same, holds⟩
        rw [classes] at same
        rw [congruent.holds_of_classes same]
        exact holds
      · intro holds
        exact ⟨arguments, classes, holds⟩
  | same left right =>
      obtain ⟨sortName, leftSort, rightSort⟩ := isSorted
      obtain ⟨leftListed, leftSame⟩ := Theory.sortingOf_eq_some_iff.mp leftSort
      obtain ⟨rightListed, rightSame⟩ := Theory.sortingOf_eq_some_iff.mp rightSort
      rw [valuation_same, ← congruent.classOf_eq_iff]
      constructor
      · intro equal
        rw [← names.classes left leftListed, ← names.classes right rightListed, equal]
      · intro sameClass
        apply herbrand_element_ext
        · rw [names.sortsOf, names.sortsOf, leftSame, rightSame]
        · rw [names.classes left leftListed, names.classes right rightListed, sameClass]

end Reading

end Ergo
