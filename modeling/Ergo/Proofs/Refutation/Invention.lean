import Ergo.Proofs.Formula.SkolemForm
import Ergo.Proofs.Refutation.Soundness
import Ergo.Proofs.Theory.Attempts

/-!
Names that a refutation invents: the new constants, and the witnesses for sorts that nothing else
inhabits. Main statement: `inventsFresh`. The searches for names end, the names that they find are
different from each other and from all that is declared, and so from all names in the formulas that
are refuted; and the sorts over which these quantify have members before the expansion starts.
-/

namespace Ergo

/-! ## Declared names -/

namespace Theory

variable {theory later : Theory} {formula : Formula}

/-- The names of the formula that stand for themselves, and its predicates, are declared. -/
structure Declares (theory : Theory) (formula : Formula) : Prop where
  names : formula.groundNameOccurrences [] ⊆ theory.symbolNames
  predicates : formula.predicates ⊆ theory.symbolNames

theorem declares_of_check (accepted : theory.check formula = .ok ()) : theory.Declares formula := by
  have wellSorted := Formula.wellSorted_of_check accepted
  constructor
  · intro name occurs
    obtain ⟨_, isSorted⟩ := Option.isSome_iff_exists.mp (wellSorted.sort?_isSome occurs)
    exact mem_symbolNames_of_nameSort? isSorted
  · intro name occurs
    obtain ⟨_, isApplied⟩ := Option.isSome_iff_exists.mp (wellSorted.domain?_isSome occurs)
    exact mem_symbolNames_of_domain? isApplied

theorem Declares.extend (declares : theory.Declares formula) (extension : later.Extends theory) :
    later.Declares formula where
  names := List.Subset.trans declares.names extension.symbolNames_subset
  predicates := List.Subset.trans declares.predicates extension.symbolNames_subset

theorem Declares.negationNormal (declares : theory.Declares formula) :
    theory.Declares formula.negationNormal := by
  constructor
  · rw [Formula.groundNameOccurrences_eq_map, Formula.negationNormal, Formula.freeTerms_normal,
      ← Formula.groundNameOccurrences_eq_map]
    exact declares.names
  · rw [Formula.negationNormal, Formula.predicates_normal]
    exact declares.predicates

/-- What was accepted once is declared from then on. -/
theorem declares_of_mem_attemptAll {statements : List Statement}
    (stored : formula ∈ (empty.attemptAll statements).assertions) :
    (empty.attemptAll statements).Declares formula := by
  rcases exists_accepting stored with atStart | ⟨before, after, rfl, accepted⟩
  · exact absurd atStart List.not_mem_nil
  · rw [attemptAll_append]
    exact (declares_of_check accepted).extend (extends_attemptAll _ _)

end Theory

namespace Refutation

variable {theory : Theory} {conclusion : Formula}

theorem declares_of_mem_formulasOf {statements : List Statement}
    (accepted : (Theory.empty.attemptAll statements).check conclusion = .ok ()) {formula : Formula}
    (member : formula ∈ formulasOf (Theory.empty.attemptAll statements) conclusion) :
    (Theory.empty.attemptAll statements).Declares formula := by
  obtain ⟨before, listed, rfl⟩ := List.mem_map.mp member
  apply Theory.Declares.negationNormal
  rcases List.mem_append.mp listed with isAssertion | isConclusion
  · exact Theory.declares_of_mem_attemptAll isAssertion
  · rw [List.mem_singleton.mp isConclusion]
    obtain ⟨names, predicates⟩ := Theory.declares_of_check accepted
    exact ⟨names, predicates⟩

/-! ## New constants -/

end Refutation

/-- Each constant has the name that is chosen for its variable after the constants before it. -/
theorem SkolemNaming.name_of_introduce_eq {naming : SkolemNaming}
    {introduced before after : List SkolemConstant} {binders : List String}
    {constant : SkolemConstant}
    (split : naming.introduce introduced binders = before ++ constant :: after) :
    constant.name = naming (introduced ++ before) constant.replaced := by
  induction binders generalizing introduced before with
  | nil => simp [introduce] at split
  | cons binder binders induction =>
      cases before with
      | nil =>
          rw [List.nil_append, introduce, List.cons.injEq] at split
          rw [← split.1, List.append_nil]
      | cons first before =>
          rw [List.cons_append, introduce, List.cons.injEq] at split
          have later := induction split.2
          rwa [split.1, List.append_assoc] at later

namespace Refutation

theorem introducedFor_eq (theory : Theory) (conclusion : Formula) :
    introducedFor theory conclusion = SkolemNaming.introduce (skolemName theory) []
      (Formula.partsOuterExistentials (formulasOf theory conclusion)).flatten :=
  Formula.snd_skolemizeParts fun _ member _ =>
    (isNormal_of_mem_formulasOf member).snd_skolemizeWith

theorem areNew_introducedFor (theory : Theory) (conclusion : Formula) :
    AreNew theory.symbolNames (introducedFor theory conclusion) :=
  (skolemName_fresh theory).areNew_skolemizeAll (formulasOf theory conclusion)

/-! ## Witnesses -/

/-- The witnesses that make the sorts inhabited, each with its sort, in the order in which they are
invented. -/
def witnesses (domains : Domains) (taken : List String) : List String → List (String × String)
  | [] => []
  | sortName :: later =>
      if domains.isInhabited sortName then witnesses domains taken later
      else
        let name := witnessName sortName taken
        (sortName, name) :: witnesses (domains.add sortName name) (name :: taken) later

theorem members_inhabit (domains : Domains) (taken sorts : List String) :
    (inhabit domains taken sorts).members = domains.members ++ witnesses domains taken sorts := by
  induction sorts generalizing domains taken with
  | nil => simp [inhabit, witnesses]
  | cons sortName sorts induction =>
      rw [inhabit, witnesses]
      split
      · exact induction domains taken
      · next empty =>
          have missing : (sortName, witnessName sortName taken) ∉ domains.members := by
            intro listed
            exact empty (Domains.isInhabited_iff.mpr ⟨_, listed⟩)
          have added : (domains.add sortName (witnessName sortName taken)).members =
              domains.members ++ [(sortName, witnessName sortName taken)] := by
            rw [Domains.add, if_neg (by simpa using missing)]
          rw [induction, added, List.append_assoc]
          rfl

theorem not_mem_of_mem_witnesses {domains : Domains} {taken sorts : List String}
    {witness : String × String} (member : witness ∈ witnesses domains taken sorts) :
    witness.2 ∉ taken := by
  induction sorts generalizing domains taken with
  | nil => exact absurd member List.not_mem_nil
  | cons sortName sorts induction =>
      rw [witnesses] at member
      split at member
      · exact induction member
      · rcases List.mem_cons.mp member with rfl | inLater
        · exact freshName_not_mem _ taken
        · exact fun isTaken => induction inLater (List.mem_cons_of_mem _ isTaken)

theorem nodup_witnesses (domains : Domains) (taken sorts : List String) :
    ((witnesses domains taken sorts).map Prod.snd).Nodup := by
  induction sorts generalizing domains taken with
  | nil => exact List.nodup_nil
  | cons sortName sorts induction =>
      rw [witnesses]
      split
      · exact induction domains taken
      · refine List.nodup_cons.mpr ⟨fun again => ?_, induction _ _⟩
        obtain ⟨witness, inLater, same⟩ := List.mem_map.mp again
        exact not_mem_of_mem_witnesses inLater (same ▸ List.mem_cons_self)

theorem snd_of_witnesses_eq {domains : Domains} {taken sorts : List String}
    {before after : List (String × String)} {witness : String × String}
    (split : witnesses domains taken sorts = before ++ witness :: after) :
    witness.2 = witnessName witness.1 ((before.map Prod.snd).reverse ++ taken) := by
  induction sorts generalizing domains taken before with
  | nil => simp [witnesses] at split
  | cons sortName sorts induction =>
      rw [witnesses] at split
      split at split
      · exact induction split
      · cases before with
        | nil =>
            rw [List.nil_append, List.cons.injEq] at split
            rw [← split.1]
            rfl
        | cons first before =>
            rw [List.cons_append, List.cons.injEq] at split
            have later := induction split.2
            rwa [← split.1, List.map_cons, List.reverse_cons, List.append_assoc]

def witnessesFor (theory : Theory) (conclusion : Formula) : List (String × String) :=
  witnesses
    (namedDomains theory (introducedFor theory conclusion) (Refutation.of theory conclusion).goals)
    (namesInUse theory.symbolNames (introducedFor theory conclusion))
    (((Refutation.of theory conclusion).goals.flatMap Formula.universalVariables).map
      theory.variableSort)

theorem members_domains (theory : Theory) (conclusion : Formula) :
    (Refutation.of theory conclusion).domains.members =
      (namedDomains theory (introducedFor theory conclusion)
        (Refutation.of theory conclusion).goals).members ++ witnessesFor theory conclusion :=
  members_inhabit _ _ _

/-! ## Invented names -/

/-- All names that are invented for a refutation, in the order in which they are. -/
def inventedNames (theory : Theory) (conclusion : Formula) : List String :=
  (introducedFor theory conclusion).map SkolemConstant.name ++
    (witnessesFor theory conclusion).map Prod.snd

theorem nodup_inventedNames (theory : Theory) (conclusion : Formula) :
    (inventedNames theory conclusion).Nodup := by
  refine List.nodup_append.mpr
    ⟨(areNew_introducedFor theory conclusion).distinct, nodup_witnesses _ _ _, ?_⟩
  intro name isConstant other isWitness same
  obtain ⟨witness, member, rfl⟩ := List.mem_map.mp isWitness
  exact not_mem_of_mem_witnesses member (List.mem_append_right _ (same ▸ isConstant))

theorem not_mem_symbolNames_of_invented {name : String}
    (invented : name ∈ inventedNames theory conclusion) : name ∉ theory.symbolNames := by
  rcases List.mem_append.mp invented with isConstant | isWitness
  · obtain ⟨constant, member, rfl⟩ := List.mem_map.mp isConstant
    exact (areNew_introducedFor theory conclusion).unused constant member
  · obtain ⟨witness, member, rfl⟩ := List.mem_map.mp isWitness
    exact fun declared => not_mem_of_mem_witnesses member (List.mem_append_left _ declared)

/-- The names that stand for themselves in a goal are declared or new constants. -/
theorem names_subset_of_mem_goals
    (declares : ∀ formula ∈ formulasOf theory conclusion, theory.Declares formula) :
    ∀ goal ∈ (Refutation.of theory conclusion).goals, ∀ name ∈ goal.groundNameOccurrences [],
      name ∈ namesInUse theory.symbolNames (introducedFor theory conclusion) := by
  have introduced : ∀ constant ∈ introducedFor theory conclusion,
      constant.name ∈ namesInUse theory.symbolNames (introducedFor theory conclusion) :=
    fun _ member => List.mem_append_right _ (List.mem_map_of_mem member)
  refine Formula.forall_mem_skolemizeParts (fun formula listed _ constants => ?_) introduced
  refine Formula.usable_of_mem_skolemizeWith .nil (fun name occurs => ?_) ?_ constants
  · exact List.mem_append_left _ ((declares formula listed).names occurs)
  · simp [Bindings.targets]

theorem predicates_subset_of_mem_goals
    (declares : ∀ formula ∈ formulasOf theory conclusion, theory.Declares formula) {goal : Formula}
    (member : goal ∈ (Refutation.of theory conclusion).goals) :
    goal.predicates ⊆ theory.symbolNames := by
  intro name occurs
  have inGoals : name ∈ Formula.partsPredicates (Refutation.of theory conclusion).goals := by
    rw [Formula.partsPredicates_eq_flatMap]
    exact List.mem_flatMap.mpr ⟨goal, member, occurs⟩
  have kept : Formula.partsPredicates (Refutation.of theory conclusion).goals =
      Formula.partsPredicates (formulasOf theory conclusion) :=
    Formula.partsPredicates_skolemizeParts fun formula _ _ => Formula.predicates_skolemizeWith _ _ _
  rw [kept, Formula.partsPredicates_eq_flatMap] at inGoals
  obtain ⟨formula, listed, inside⟩ := List.mem_flatMap.mp inGoals
  exact (declares formula listed).predicates inside

/-! ## Freshness -/

/-- What holds of the names that are invented to refute a conclusion. -/
structure InventsFresh (theory : Theory) (conclusion : Formula) : Prop where
  ends : ∀ base taken, ∃! name, FindsName base taken 1 name
  constants : ∀ before constant after,
    introducedFor theory conclusion = before ++ constant :: after →
      FindsName ("sk_" ++ constant.replaced) (namesInUse theory.symbolNames before) 1 constant.name
  witnesses : ∀ before witness after,
    witnessesFor theory conclusion = before ++ witness :: after →
      FindsName (Text.lower witness.1 ++ "_witness")
        ((before.map Prod.snd).reverse ++
          namesInUse theory.symbolNames (introducedFor theory conclusion)) 1 witness.2
  members : (Refutation.of theory conclusion).domains.members =
    (namedDomains theory (introducedFor theory conclusion)
      (Refutation.of theory conclusion).goals).members ++ witnessesFor theory conclusion
  distinct : (inventedNames theory conclusion).Nodup
  undeclared : ∀ name ∈ inventedNames theory conclusion, name ∉ theory.symbolNames
  formulas : ∀ formula ∈ formulasOf theory conclusion, ∀ name ∈ inventedNames theory conclusion,
    name ∉ formula.constants ∧ name ∉ formula.freeVariables ∧ name ∉ formula.predicates
  goals : ∀ goal ∈ (Refutation.of theory conclusion).goals,
    (∀ name ∈ goal.constants ++ goal.freeVariables,
      name ∈ theory.symbolNames ∨ ∃ constant ∈ introducedFor theory conclusion,
        constant.name = name) ∧
    ∀ name ∈ goal.predicates, name ∈ theory.symbolNames
  inhabited : ∀ goal ∈ (Refutation.of theory conclusion).goals,
    ∀ binder ∈ goal.universalVariables,
      (Refutation.of theory conclusion).domains.isInhabited (theory.variableSort binder) = true

/-- After any statements, those passed over that are refused, the names that are invented to refute an
accepted conclusion are fresh. -/
theorem inventsFresh (statements : List Statement) {conclusion : Formula}
    (accepted : (Theory.empty.attemptAll statements).check conclusion = .ok ()) :
    InventsFresh (Theory.empty.attemptAll statements) conclusion where
  ends base taken := by
    refine ⟨freshName base taken, findsName_iff.mpr rfl, fun name finds => findsName_iff.mp finds⟩
  constants before constant after split := by
    rw [introducedFor_eq] at split
    exact findsName_iff.mpr (SkolemNaming.name_of_introduce_eq split)
  witnesses before witness after split := findsName_iff.mpr (snd_of_witnesses_eq split)
  members := members_domains _ conclusion
  distinct := nodup_inventedNames _ conclusion
  undeclared name invented := not_mem_symbolNames_of_invented invented
  formulas formula member name invented := by
    have outside := not_mem_symbolNames_of_invented invented
    have declares := declares_of_mem_formulasOf accepted member
    have standsNowhere : name ∉ formula.groundNameOccurrences [] :=
      fun occurs => outside (declares.names occurs)
    rw [Formula.mem_groundNameOccurrences_iff, not_or] at standsNowhere
    exact ⟨standsNowhere.1, standsNowhere.2, fun occurs => outside (declares.predicates occurs)⟩
  goals goal member := by
    have declares formula := @declares_of_mem_formulasOf conclusion statements accepted formula
    refine ⟨fun name occurs => ?_, predicates_subset_of_mem_goals declares member⟩
    rw [List.mem_append, ← Formula.mem_groundNameOccurrences_iff] at occurs
    exact mem_namesInUse.mp (names_subset_of_mem_goals declares goal member name occurs)
  inhabited goal member binder occurs := by
    rw [Formula.universalVariables, ← NameSet.mem_iff_mem_names, NameSet.mem_ofList] at occurs
    exact Domains.isInhabited_iff.mpr (domainsOf_inhabited member occurs)

/-- Names like those that are invented are declared, and two sorts have one name in small letters. -/
def lookalikes : List Statement :=
  [.declare (.constant "sk_x" objectSort), .declare (.predicate "sk_x_2" [objectSort]),
    .declare (.constant "object_witness" objectSort), .declare (.sort "Dog"), .declare (.sort "DOG"),
    .declare (.var "d" "Dog"), .declare (.var "e" "DOG"),
    .declare (.var "dog_witness" objectSort), .declare (.predicate "P" ["Dog"]),
    .declare (.predicate "Q" ["DOG"]), .assert (.forAll ["d"] (.atom "P" [.var "d"])),
    .assert (.atom "Unknown" []), .assert (.forAll ["e"] (.atom "Q" [.var "e"]))]

theorem lookalikes_inventsFresh :
    (Theory.empty.attemptAll lookalikes).check (.forAll ["x"] (.atom "sk_x_2" [.var "x"])) =
      .ok () ∧
    inventedNames (Theory.empty.attemptAll lookalikes)
      (.forAll ["x"] (.atom "sk_x_2" [.var "x"])) =
        ["sk_x_3", "dog_witness_2", "dog_witness_3"] ∧
    InventsFresh (Theory.empty.attemptAll lookalikes)
      (.forAll ["x"] (.atom "sk_x_2" [.var "x"])) :=
  ⟨by decide +kernel, by decide +kernel, inventsFresh lookalikes (by decide +kernel)⟩

end Refutation

end Ergo
