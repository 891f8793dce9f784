import Ergo.Proof.Refutation
import Ergo.Proofs.Formula.Skolem
import Ergo.Proofs.FreshName
import Ergo.Proofs.Theory

/-!
The names over which a refutation expands. Each name of a domain can be read in the sort of the
domain without changing what the names of the theory stand for (`exists_reading_domainsOf`), the names
that stand for themselves in the goals are in the domains (`mem_domainsOf_of_nameSort?`), and no
domain over which a goal quantifies is empty (`domainsOf_inhabited`).
-/

namespace Ergo

universe u

/-! ## Members -/

namespace Domains

theorem mem_add {domains : Domains} {sortName name : String} {member : String × String} :
    member ∈ (domains.add sortName name).members ↔
      member ∈ domains.members ∨ member = (sortName, name) := by
  unfold add
  split
  · next listed =>
      rw [List.contains_iff_mem] at listed
      constructor
      · exact .inl
      · rintro (inside | rfl)
        · exact inside
        · exact listed
  · simp

theorem mem_addAll {domains : Domains} {added : List (String × String)}
    {member : String × String} :
    member ∈ (domains.addAll added).members ↔ member ∈ domains.members ∨ member ∈ added := by
  induction added generalizing domains with
  | nil => simp [addAll]
  | cons first added induction =>
      have step : domains.addAll (first :: added) =
          (domains.add first.1 first.2).addAll added := rfl
      rw [step, induction, mem_add, List.mem_cons, or_assoc]

theorem mem_domain {domains : Domains} {sortName name : String} :
    name ∈ domains.domain sortName ↔ (sortName, name) ∈ domains.members := by
  constructor
  · intro member
    obtain ⟨⟨memberSort, memberName⟩, inFilter, rfl⟩ := List.mem_map.mp member
    obtain ⟨listed, sameSort⟩ := List.mem_filter.mp inFilter
    rw [← beq_iff_eq.mp sameSort]
    exact listed
  · intro listed
    exact List.mem_map.mpr ⟨(sortName, name), List.mem_filter.mpr ⟨listed, by simp⟩, rfl⟩

theorem isInhabited_iff {domains : Domains} {sortName : String} :
    domains.isInhabited sortName = true ↔ ∃ name, (sortName, name) ∈ domains.members := by
  simp only [isInhabited, Bool.not_eq_true', List.isEmpty_eq_false_iff_exists_mem, mem_domain]

theorem nodup_add {domains : Domains} (nodup : domains.members.Nodup) (sortName name : String) :
    (domains.add sortName name).members.Nodup := by
  unfold add
  split
  · exact nodup
  · next missing =>
      rw [List.contains_iff_mem] at missing
      rw [← List.concat_eq_append]
      exact nodup.concat missing

theorem nodup_addAll {domains : Domains} (nodup : domains.members.Nodup)
    (added : List (String × String)) : (domains.addAll added).members.Nodup := by
  induction added generalizing domains with
  | nil => exact nodup
  | cons first added induction => exact induction (nodup_add nodup first.1 first.2)

theorem nodup_domain {domains : Domains} (nodup : domains.members.Nodup) (sortName : String) :
    (domains.domain sortName).Nodup := by
  refine List.Nodup.map_on ?_ (nodup.filter _)
  intro first firstListed second secondListed sameName
  have firstSort := beq_iff_eq.mp (List.mem_filter.mp firstListed).2
  have secondSort := beq_iff_eq.mp (List.mem_filter.mp secondListed).2
  exact Prod.ext (firstSort.trans secondSort.symm) sameName

theorem domain_add_of_ne {domains : Domains} {sortName other name : String}
    (differ : sortName ≠ other) : (domains.add sortName name).domain other = domains.domain other := by
  unfold add
  split
  · rfl
  · simp [domain, differ]

theorem domain_add_self {domains : Domains} {sortName name : String}
    (empty : domains.domain sortName = []) : (domains.add sortName name).domain sortName = [name] := by
  have missing : (sortName, name) ∉ domains.members := by
    rw [← mem_domain, empty]
    exact List.not_mem_nil
  rw [add, if_neg (by simpa using missing), domain, List.filter_append, List.map_append, ← domain,
    empty]
  simp

/-- A reading gives the names of the domains values of their sorts. -/
def Reads {model : Structure.{u}} (domains : Domains) (reading : model.Reading) : Prop :=
  ∀ sortName name, (sortName, name) ∈ domains.members → (reading name).1 = sortName

end Domains

/-! ## Witnesses -/

namespace Refutation

theorem subset_inhabit (domains : Domains) (taken sorts : List String) :
    domains.members ⊆ (inhabit domains taken sorts).members := by
  induction sorts generalizing domains taken with
  | nil => exact fun _ member => member
  | cons sortName sorts induction =>
      intro member listed
      rw [inhabit]
      split
      · exact induction domains taken listed
      · exact induction _ _ (Domains.mem_add.mpr (.inl listed))

theorem inhabit_inhabited {domains : Domains} {taken sorts : List String} {sortName : String}
    (member : sortName ∈ sorts) :
    ∃ name, (sortName, name) ∈ (inhabit domains taken sorts).members := by
  induction sorts generalizing domains taken with
  | nil => simp at member
  | cons first sorts induction =>
      rw [inhabit]
      rcases List.mem_cons.mp member with rfl | inLater
      · split
        · next inhabited =>
            obtain ⟨name, listed⟩ := Domains.isInhabited_iff.mp inhabited
            exact ⟨name, subset_inhabit _ _ _ listed⟩
        · exact ⟨_, subset_inhabit _ _ _ (Domains.mem_add.mpr (.inr rfl))⟩
      · split
        · exact induction inLater
        · exact induction inLater

open Structure

variable {model : Structure.{u}} {reading : model.Reading}

theorem exists_reading_inhabit {domains : Domains} {taken sorts : List String}
    (reads : domains.Reads reading)
    (listed : ∀ sortName name, (sortName, name) ∈ domains.members → name ∈ taken) :
    ∃ other, AgreeOn taken reading other ∧ (inhabit domains taken sorts).Reads other := by
  induction sorts generalizing domains taken reading with
  | nil => exact ⟨reading, fun _ _ => rfl, reads⟩
  | cons sortName sorts induction =>
      rw [inhabit]
      split
      · exact induction reads listed
      · obtain ⟨element, elementSort⟩ := model.exists_element sortName
        set witness := witnessName sortName taken
        set middle := Function.update reading witness element with middleDef
        have fresh : witness ∉ taken := freshName_not_mem _ taken
        have kept : AgreeOn taken reading middle := by
          intro name member
          have differ : name ≠ witness := fun same => fresh (same ▸ member)
          rw [middleDef, Function.update_of_ne differ]
        have middleReads : (domains.add sortName witness).Reads middle := by
          intro memberSort name member
          rcases Domains.mem_add.mp member with before | same
          · rw [← kept name (listed memberSort name before)]
            exact reads memberSort name before
          · obtain ⟨rfl, rfl⟩ := Prod.mk.inj same
            rw [middleDef, Function.update_self, elementSort]
        have middleListed : ∀ memberSort name,
            (memberSort, name) ∈ (domains.add sortName witness).members →
              name ∈ witness :: taken := by
          intro memberSort name member
          rcases Domains.mem_add.mp member with before | same
          · exact List.mem_cons_of_mem _ (listed memberSort name before)
          · exact List.mem_cons.mpr (.inl (Prod.mk.inj same).2)
        obtain ⟨other, agree, otherReads⟩ := induction middleReads middleListed
        exact ⟨other, kept.trans (agree.mono (List.subset_cons_self witness taken)), otherReads⟩

/-! ## The domains of a refutation -/

variable {theory : Theory} {introduced : List SkolemConstant} {goals : List Formula}

/-- The members of the domains before any sort gets a witness. -/
def namedDomains (theory : Theory) (introduced : List SkolemConstant) (goals : List Formula) :
    Domains :=
  ((Domains.empty.addAll theory.constants).addAll (introduced.map fun constant =>
    (theory.variableSort constant.replaced, constant.name))).addAll (freeVariables theory goals)

theorem domainsOf_eq (theory : Theory) (introduced : List SkolemConstant)
    (goals : List Formula) :
    domainsOf theory introduced goals =
      inhabit (namedDomains theory introduced goals) (namesInUse theory.symbolNames introduced)
        ((goals.flatMap Formula.universalVariables).map theory.variableSort) :=
  rfl

theorem mem_freeVariables {sortName name : String} :
    (sortName, name) ∈ freeVariables theory goals ↔
      (∃ goal ∈ goals, name ∈ goal.groundNameOccurrences []) ∧
        theory.freeVariableSort? name = some sortName := by
  simp only [freeVariables, List.mem_filterMap, List.mem_flatMap, Formula.groundNames,
    ← NameSet.mem_iff_mem_names, NameSet.mem_ofList, Option.map_eq_some_iff, Prod.mk.injEq]
  constructor
  · rintro ⟨_, occurs, _, declared, rfl, rfl⟩
    exact ⟨occurs, declared⟩
  · rintro ⟨occurs, declared⟩
    exact ⟨name, occurs, sortName, declared, rfl, rfl⟩

theorem mem_namedDomains {member : String × String} :
    member ∈ (namedDomains theory introduced goals).members ↔
      member ∈ theory.constants ∨
        (∃ constant ∈ introduced,
          (theory.variableSort constant.replaced, constant.name) = member) ∨
        member ∈ freeVariables theory goals := by
  simp only [namedDomains, Domains.mem_addAll, List.mem_map, Domains.empty, List.not_mem_nil,
    false_or, or_assoc]

theorem namedDomains_cases (distinct : theory.Distinct) {sortName name : String}
    (member : (sortName, name) ∈ (namedDomains theory introduced goals).members) :
    theory.nameSort? name = some sortName ∨
      ∃ constant ∈ introduced, constant.name = name ∧
        theory.variableSort constant.replaced = sortName := by
  rcases mem_namedDomains.mp member with isConstant | ⟨constant, inside, same⟩ | isFree
  · exact .inl (distinct.nameSort?_of_constants isConstant)
  · obtain ⟨sameSort, sameName⟩ := Prod.mk.inj same
    exact .inr ⟨constant, inside, sameName, sameSort⟩
  · exact .inl (Theory.nameSort?_of_freeVariableSort? (mem_freeVariables.mp isFree).2)

/-- The names of the domains can be read in their sorts, and the names of the theory and the new
constants as they are. -/
theorem exists_reading_domainsOf (distinct : theory.Distinct) (goals : List Formula)
    (reads : theory.Reads reading) (ranges : ∀ constant ∈ introduced,
      (reading constant.name).1 = theory.variableSort constant.replaced) :
    ∃ other, AgreeOn (namesInUse theory.symbolNames introduced) reading other ∧
      (domainsOf theory introduced goals).Reads other := by
  rw [domainsOf_eq]
  apply exists_reading_inhabit
  · intro sortName name member
    rcases namedDomains_cases distinct member with declared | ⟨constant, inside, rfl, rfl⟩
    · exact reads name sortName declared
    · exact ranges constant inside
  · intro sortName name member
    rw [mem_namesInUse]
    rcases namedDomains_cases distinct member with declared | ⟨constant, inside, same, _⟩
    · exact .inl (Theory.mem_symbolNames_of_nameSort? declared)
    · exact .inr ⟨constant, inside, same⟩

theorem mem_domainsOf_of_introduced {constant : SkolemConstant} (member : constant ∈ introduced) :
    (theory.variableSort constant.replaced, constant.name) ∈
      (domainsOf theory introduced goals).members := by
  rw [domainsOf_eq]
  exact subset_inhabit _ _ _ (mem_namedDomains.mpr (.inr (.inl ⟨constant, member, rfl⟩)))

theorem mem_domainsOf_of_nameSort? {sortName name : String} {goal : Formula}
    (member : goal ∈ goals) (occurs : name ∈ goal.groundNameOccurrences [])
    (declared : theory.nameSort? name = some sortName) :
    (sortName, name) ∈ (domainsOf theory introduced goals).members := by
  rw [domainsOf_eq]
  apply subset_inhabit
  rw [mem_namedDomains]
  rcases Theory.mem_constants_or_freeVariableSort? declared with isConstant | isFree
  · exact .inl isConstant
  · exact .inr (.inr (mem_freeVariables.mpr ⟨⟨goal, member, occurs⟩, isFree⟩))

theorem domainsOf_inhabited {goal : Formula} (member : goal ∈ goals) {binder : String}
    (occurs : binder ∈ goal.universalOccurrences) :
    ∃ name, (theory.variableSort binder, name) ∈ (domainsOf theory introduced goals).members := by
  rw [domainsOf_eq]
  apply inhabit_inhabited
  refine List.mem_map_of_mem (List.mem_flatMap.mpr ⟨goal, member, ?_⟩)
  rw [Formula.universalVariables, ← NameSet.mem_iff_mem_names, NameSet.mem_ofList]
  exact occurs

/-! ## Sizes -/

theorem nodup_namedDomains : (namedDomains theory introduced goals).members.Nodup :=
  Domains.nodup_addAll (Domains.nodup_addAll (Domains.nodup_addAll List.nodup_nil _) _) _

/-- All names of a domain are names of the theory or new constants. -/
theorem length_domain_namedDomains_le (distinct : theory.Distinct) (sortName : String) :
    ((namedDomains theory introduced goals).domain sortName).length ≤
      theory.symbols.length + introduced.length := by
  have listed : (namedDomains theory introduced goals).domain sortName ⊆
      namesInUse theory.symbolNames introduced := by
    intro name member
    rw [mem_namesInUse]
    rcases namedDomains_cases distinct (Domains.mem_domain.mp member) with
      declared | ⟨constant, inside, same, -⟩
    · exact .inl (Theory.mem_symbolNames_of_nameSort? declared)
    · exact .inr ⟨constant, inside, same⟩
  have short := ((Domains.nodup_domain nodup_namedDomains sortName).subperm listed).length_le
  rwa [namesInUse, List.length_append, List.length_map, Theory.symbolNames, List.length_map] at short

/-- Only a sort without names gets a witness. -/
theorem length_domain_inhabit_le (domains : Domains) (taken sorts : List String) (sortName : String) :
    ((inhabit domains taken sorts).domain sortName).length ≤
      max 1 (domains.domain sortName).length := by
  induction sorts generalizing domains taken with
  | nil => exact Nat.le_max_right 1 _
  | cons first sorts induction =>
      rw [inhabit]
      split
      · exact induction domains taken
      · next empty =>
          refine Nat.le_trans (induction _ _) (Nat.max_le.mpr ⟨Nat.le_max_left 1 _, ?_⟩)
          by_cases same : first = sortName
          · subst same
            rw [Bool.not_eq_true, Domains.isInhabited, Bool.not_eq_false', List.isEmpty_iff] at empty
            rw [Domains.domain_add_self empty]
            exact Nat.le_max_left 1 _
          · rw [Domains.domain_add_of_ne same]
            exact Nat.le_max_right 1 _

theorem length_domain_domainsOf_le (distinct : theory.Distinct) (sortName : String) :
    ((domainsOf theory introduced goals).domain sortName).length ≤
      max 1 (theory.symbols.length + introduced.length) := by
  rw [domainsOf_eq]
  have named : ((namedDomains theory introduced goals).domain sortName).length ≤ _ :=
    length_domain_namedDomains_le distinct sortName
  have inhabited := length_domain_inhabit_le (namedDomains theory introduced goals)
    (namesInUse theory.symbolNames introduced)
    ((goals.flatMap Formula.universalVariables).map theory.variableSort) sortName
  omega

end Refutation

end Ergo
