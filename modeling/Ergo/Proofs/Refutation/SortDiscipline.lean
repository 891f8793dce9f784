import Ergo.Proofs.Refutation.Countermodel
import Ergo.Proofs.Refutation.Invention

/-!
The sorts of the names in ground goals. The solver is told nothing about sorts, and need not be: in the
goals that are expanded, predicates apply to names of the sorts of their domains and equalities are
between names of one sort (`Program.keepsSortDiscipline`), so that no names of different sorts are ever
compared.
-/

namespace Ergo

open Ground

variable {theory : Theory} {conclusion : Formula} {limit : Nat}

namespace Refutation

/-! ## Sorts of names -/

/-- The sorts of the names of a refutation: those of the constants and variables that are declared, of
the variables that new constants replace, and of the universal variables for which there are
witnesses. -/
inductive HasSort (theory : Theory) (conclusion : Formula) : String → String → Prop
  | declared {name sortName : String} : theory.nameSort? name = some sortName →
      HasSort theory conclusion name sortName
  | introduced {constant : SkolemConstant} : constant ∈ introducedFor theory conclusion →
      HasSort theory conclusion constant.name (theory.variableSort constant.replaced)
  | witness {goal : Formula} {binder name : String} :
      goal ∈ (Refutation.of theory conclusion).goals → binder ∈ goal.universalVariables →
      (theory.variableSort binder, name) ∈ witnessesFor theory conclusion →
      HasSort theory conclusion name (theory.variableSort binder)

theorem fst_mem_of_mem_witnesses {domains : Domains} {taken sorts : List String}
    {witness : String × String} (member : witness ∈ witnesses domains taken sorts) :
    witness.1 ∈ sorts := by
  induction sorts generalizing domains taken with
  | nil => exact absurd member List.not_mem_nil
  | cons sortName sorts induction =>
      rw [witnesses] at member
      split at member
      · exact List.mem_cons_of_mem _ (induction member)
      · rcases List.mem_cons.mp member with rfl | inLater
        · exact List.mem_cons_self
        · exact List.mem_cons_of_mem _ (induction inLater)

theorem hasSort_of_mem_domains (distinct : theory.Distinct) {sortName name : String}
    (member : (sortName, name) ∈ (Refutation.of theory conclusion).domains.members) :
    HasSort theory conclusion name sortName := by
  rw [members_domains, List.mem_append] at member
  rcases member with isNamed | isWitness
  · rcases namedDomains_cases distinct isNamed with declared | ⟨constant, introduced, rfl, rfl⟩
    · exact .declared declared
    · exact .introduced introduced
  · obtain ⟨binder, occurs, rfl⟩ := List.mem_map.mp (fst_mem_of_mem_witnesses isWitness)
    obtain ⟨goal, listed, inGoal⟩ := List.mem_flatMap.mp occurs
    exact .witness listed inGoal isWitness

theorem HasSort.eq {sorts : String → String} (sortsNames : SortsNames theory conclusion sorts)
    {name sortName : String} (hasSort : HasSort theory conclusion name sortName) :
    sorts name = sortName := by
  cases hasSort with
  | declared declared => exact sortsNames.ofTheory name sortName declared
  | introduced introduced =>
      exact sortsNames.ofDomains _ _ (mem_domainsOf_of_introduced introduced)
  | witness _ _ isWitness =>
      apply sortsNames.ofDomains
      rw [members_domains]
      exact List.mem_append_right _ isWitness

/-! ## Sorts in ground goals -/

/-- Two names are compared in the goals that are expanded: in an equality, or as the arguments at one
place of one predicate. -/
inductive Compares (goals : List GroundGoal) : String → String → Prop
  | equality {expansion : Formula} {left right : String} : .expanded expansion ∈ goals →
      .same left right ∈ (ofFormula true expansion).atoms → Compares goals left right
  | arguments {expansion other : Formula} {predicate left right : String}
      {arguments others : List String} {index : Nat} :
      .expanded expansion ∈ goals → .expanded other ∈ goals →
      .holds predicate arguments ∈ (ofFormula true expansion).atoms →
      .holds predicate others ∈ (ofFormula true other).atoms →
      arguments[index]? = some left → others[index]? = some right → Compares goals left right

/-- What holds of the sorts in the goals that are expanded with a limit. -/
structure KeepsSortDiscipline (theory : Theory) (conclusion : Formula) (limit : Nat) : Prop where
  unique : ∀ {name first second}, HasSort theory conclusion name first →
    HasSort theory conclusion name second → first = second
  ground : ∀ {expansion}, .expanded expansion ∈ (Refutation.of theory conclusion).groundGoals limit →
    expansion.IsGround
  atoms : ∀ {expansion}, .expanded expansion ∈ (Refutation.of theory conclusion).groundGoals limit →
    ∀ {predicate arguments}, .holds predicate arguments ∈ (ofFormula true expansion).atoms →
      ∃ domain, theory.domain? predicate = some domain ∧ arguments.length = domain.length ∧
        List.Forall₂ (HasSort theory conclusion) arguments domain
  equalities : ∀ {expansion},
    .expanded expansion ∈ (Refutation.of theory conclusion).groundGoals limit →
    ∀ {left right}, .same left right ∈ (ofFormula true expansion).atoms →
      ∃ sortName, HasSort theory conclusion left sortName ∧ HasSort theory conclusion right sortName
  apart : ∀ {left right},
    Relation.EqvGen (Compares ((Refutation.of theory conclusion).groundGoals limit)) left right →
    ∀ sortName, HasSort theory conclusion left sortName ↔ HasSort theory conclusion right sortName

theorem Accepted.hasSort_of_sort? (accepted : Accepted theory conclusion) {sorts : String → String}
    {name sortName : String}
    (isSorted : ((Refutation.of theory conclusion).domains.sorting theory sorts).sort? name =
      some sortName) : HasSort theory conclusion name sortName := by
  obtain ⟨listed, rfl⟩ := Theory.sortingOf_eq_some_iff.mp isSorted
  exact hasSort_of_mem_domains accepted.distinct listed

theorem Accepted.hasSort_atom (accepted : Accepted theory conclusion) {expansion : Formula}
    (member : .expanded expansion ∈ (Refutation.of theory conclusion).groundGoals limit)
    {predicate : String} {arguments : List String}
    (occurs : .holds predicate arguments ∈ (ofFormula true expansion).atoms) :
    ∃ domain, theory.domain? predicate = some domain ∧
      List.Forall₂ (HasSort theory conclusion) arguments domain := by
  obtain ⟨sorts, sortsNames⟩ := accepted.exists_sortsNames
  obtain ⟨domain, isApplied, isSorted⟩ := accepted.wellSorted_atom sortsNames member occurs
  exact ⟨domain, isApplied, isSorted.imp fun _ _ => accepted.hasSort_of_sort?⟩

theorem Accepted.hasSort_equality (accepted : Accepted theory conclusion) {expansion : Formula}
    (member : .expanded expansion ∈ (Refutation.of theory conclusion).groundGoals limit)
    {left right : String} (occurs : .same left right ∈ (ofFormula true expansion).atoms) :
    ∃ sortName, HasSort theory conclusion left sortName ∧
      HasSort theory conclusion right sortName := by
  obtain ⟨sorts, sortsNames⟩ := accepted.exists_sortsNames
  obtain ⟨sortName, leftSort, rightSort⟩ := accepted.wellSorted_atom sortsNames member occurs
  exact ⟨sortName, accepted.hasSort_of_sort? leftSort, accepted.hasSort_of_sort? rightSort⟩

theorem Accepted.hasSort_of_compares (accepted : Accepted theory conclusion) {left right : String}
    (compares : Compares ((Refutation.of theory conclusion).groundGoals limit) left right) :
    ∃ sortName, HasSort theory conclusion left sortName ∧
      HasSort theory conclusion right sortName := by
  cases compares with
  | equality member occurs => exact accepted.hasSort_equality member occurs
  | arguments firstMember secondMember firstOccurs secondOccurs leftAt rightAt =>
      obtain ⟨domain, isApplied, firstSorts⟩ := accepted.hasSort_atom firstMember firstOccurs
      obtain ⟨other, otherApplied, secondSorts⟩ := accepted.hasSort_atom secondMember secondOccurs
      obtain rfl : domain = other := Option.some.inj (isApplied.symm.trans otherApplied)
      obtain ⟨sortName, sortAt, leftSort⟩ := exists_getElem?_of_forall₂ firstSorts leftAt
      obtain ⟨otherSort, otherAt, rightSort⟩ := exists_getElem?_of_forall₂ secondSorts rightAt
      obtain rfl : sortName = otherSort := Option.some.inj (sortAt.symm.trans otherAt)
      exact ⟨sortName, leftSort, rightSort⟩

theorem Accepted.sortDiscipline (accepted : Accepted theory conclusion) (limit : Nat) :
    KeepsSortDiscipline theory conclusion limit := by
  obtain ⟨sorts, sortsNames⟩ := accepted.exists_sortsNames
  have unique {name first second : String} (firstSort : HasSort theory conclusion name first)
      (secondSort : HasSort theory conclusion name second) : first = second :=
    (firstSort.eq sortsNames).symm.trans (secondSort.eq sortsNames)
  refine ⟨unique, ?_, ?_, accepted.hasSort_equality, ?_⟩
  · intro expansion member
    obtain ⟨goal, listed, ⟨_, ⟨⟩, expands⟩ | ⟨⟨⟩⟩⟩ := mem_groundGoals member
    exact expands.isGround (isNormal_of_mem_goals listed)
  · intro expansion member predicate arguments occurs
    obtain ⟨domain, isApplied, isSorted⟩ := accepted.hasSort_atom member occurs
    exact ⟨domain, isApplied, isSorted.length_eq, isSorted⟩
  · intro left right related
    induction related with
    | rel left right compares =>
        obtain ⟨sortName, leftSort, rightSort⟩ := accepted.hasSort_of_compares compares
        intro other
        constructor
        · intro otherSort
          exact unique leftSort otherSort ▸ rightSort
        · intro otherSort
          exact unique rightSort otherSort ▸ leftSort
    | refl name => exact fun _ => Iff.rfl
    | symm left right _ induction => exact fun sortName => (induction sortName).symm
    | trans left middle right _ _ first second =>
        exact fun sortName => (first sortName).trans (second sortName)

end Refutation

/-! ## Programs -/

namespace Program

open Refutation

variable {program : Program} {solver : Ground.Solver} {outcome : Outcome}

/-- In the goals of an accepted program that are expanded, names stand where names of their sorts belong,
and names of different sorts are not compared. -/
theorem keepsSortDiscipline (declaresFirst : program.DeclaresFirst)
    (executed : Theory.empty.executeAll program.statements = .ok theory)
    (proved : program.prove solver limit = .ok outcome) :
    KeepsSortDiscipline theory program.conclusion limit := by
  obtain ⟨checked, -⟩ := of_prove_eq_ok executed proved
  exact (declaresFirst.accepted executed checked).sortDiscipline limit

/-- Three sorts, with a variable that stands for itself, one that is bound again, a new constant and a
witness. -/
def kennel : Program :=
  { statements :=
      [.declare (.sort "Dog"), .declare (.sort "Cat"), .declare (.constant "ann" objectSort),
        .declare (.constant "rex" "Dog"), .declare (.var "d" "Dog"), .declare (.var "c" "Cat"),
        .declare (.predicate "Kind" [objectSort]),
        .declare (.relation "Owns" [objectSort, "Dog"]), .declare (.predicate "Purrs" ["Cat"]),
        .assert (.forAll ["x", "d"] (.implies (.atom "Owns" [.var "x", .var "d"])
          (.forAll ["x"] (.or [.equal (.var "d") (.constant "rex"),
            .not (.atom "Kind" [.var "x"])])))),
        .assert (.atom "Owns" [.constant "ann", .var "d"]),
        .assert (.forSome ["x"] (.atom "Kind" [.var "x"])),
        .assert (.forAll ["c"] (.not (.atom "Purrs" [.var "c"])))]
    conclusion := .equal (.var "d") (.constant "rex") }

def kennelTheory : Theory :=
  { sorts := { names := [objectSort, "Dog", "Cat"], nodup := by decide }
    symbols :=
      [.constant "ann" objectSort, .constant "rex" "Dog", .var "d" "Dog", .var "c" "Cat",
        .predicate "Kind" [objectSort], .relation "Owns" [objectSort, "Dog"],
        .predicate "Purrs" ["Cat"]]
    assertions := kennel.assertions }

theorem kennel_keepsSortDiscipline :
    kennel.prove .search 64 = .ok .proven ∧
    (Refutation.of kennelTheory kennel.conclusion).domains.members =
      [(objectSort, "ann"), ("Dog", "rex"), (objectSort, "sk_x"), ("Dog", "d"),
        ("Cat", "cat_witness")] ∧
    (∀ goal ∈ (Refutation.of kennelTheory kennel.conclusion).groundGoals 64,
      goal.isQuantified = false) ∧
    KeepsSortDiscipline kennelTheory kennel.conclusion 64 := by
  have declaresFirst : kennel.DeclaresFirst := rfl
  have executed : Theory.empty.executeAll kennel.statements = .ok kennelTheory := rfl
  have proved : kennel.prove .search 64 = .ok .proven := by decide +kernel
  exact ⟨proved, by decide +kernel, by decide +kernel,
    keepsSortDiscipline declaresFirst executed proved⟩

end Program

end Ergo
