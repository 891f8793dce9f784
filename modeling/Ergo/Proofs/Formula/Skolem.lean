import Ergo.Formula.Skolem
import Ergo.Proofs.Formula.NegationNormal

/-!
Skolemization. Main statements: where the formulas are true, so are their Skolemized forms once the
new constants are read suitably (`exists_realizes_skolemizeAll`), and where the Skolemized forms are
true with the new constants in range, so are the formulas (`holds_of_skolemizeAll`).
-/

namespace Ergo

universe u

namespace Formula

theorem groundNameOccurrences_congr (formula : Formula) {bound other : List String}
    (same : ∀ name, name ∈ bound ↔ name ∈ other) :
    formula.groundNameOccurrences bound = formula.groundNameOccurrences other := by
  have free : ∀ {bound other : List String}, (∀ name, name ∈ bound ↔ name ∈ other) →
      standsFree bound = standsFree other := by
    intro bound other same
    funext term
    cases term with
    | constant name => rfl
    | var name => simp only [standsFree, List.contains_eq_mem, same]
  induction formula generalizing bound other with
  | truth => rfl
  | falsity => rfl
  | atom predicate arguments => simp only [groundNameOccurrences, freeNames, free same]
  | equal left right => simp only [groundNameOccurrences, freeNames, free same]
  | not operand induction => exact induction same
  | and parts induction =>
      simp only [groundNameOccurrences, partsGroundNameOccurrences_eq_flatMap]
      exact List.flatMap_congr fun part member => induction part member same
  | or parts induction =>
      simp only [groundNameOccurrences, partsGroundNameOccurrences_eq_flatMap]
      exact List.flatMap_congr fun part member => induction part member same
  | implies premise consequent premiseInduction consequentInduction =>
      simp only [groundNameOccurrences, premiseInduction same, consequentInduction same]
  | forAll binders body induction =>
      exact induction fun name => by simp only [List.mem_append, same]
  | forSome binders body induction =>
      exact induction fun name => by simp only [List.mem_append, same]

/-! ## Parts -/

section Parts

variable {naming : SkolemNaming} {bindings : Bindings} {introduced : List SkolemConstant}
  {parts : List Formula} {allowed : SkolemConstant → Prop}

/-- What relates each part to its form relates the parts to their forms, one by one. It may depend on
something that all constants of the run are. -/
theorem forall₂_skolemizeParts {related : Formula → Formula → Prop}
    (each : ∀ part ∈ parts, ∀ introduced,
      (∀ constant ∈ (part.skolemizeWith naming bindings introduced).2, allowed constant) →
      related part (part.skolemizeWith naming bindings introduced).1)
    (constants : ∀ constant ∈ (skolemizeParts naming bindings introduced parts).2,
      allowed constant) :
    List.Forall₂ related parts (skolemizeParts naming bindings introduced parts).1 := by
  induction parts generalizing introduced with
  | nil => exact .nil
  | cons part parts induction =>
      obtain ⟨ownAllowed, laterAllowed⟩ := List.forall_mem_append.mp constants
      exact .cons (each part List.mem_cons_self introduced ownAllowed)
        (induction (fun later member => each later (List.mem_cons_of_mem part member)) laterAllowed)

theorem forall_mem_skolemizeParts {property : Formula → Prop}
    (each : ∀ part ∈ parts, ∀ introduced,
      (∀ constant ∈ (part.skolemizeWith naming bindings introduced).2, allowed constant) →
      property (part.skolemizeWith naming bindings introduced).1)
    (constants : ∀ constant ∈ (skolemizeParts naming bindings introduced parts).2,
      allowed constant) :
    ∀ form ∈ (skolemizeParts naming bindings introduced parts).1, property form := by
  have forms : List.Forall₂ (fun _ form => property form) parts
      (skolemizeParts naming bindings introduced parts).1 := forall₂_skolemizeParts each constants
  intro form member
  obtain ⟨_, _, holds⟩ := exists_mem_left_of_forall₂ forms member
  exact holds

end Parts

end Formula

/-! ## New constants -/

/-- The constants have different names, and none of them is among `used`. -/
structure AreNew (used : List String) (constants : List SkolemConstant) : Prop where
  distinct : (constants.map SkolemConstant.name).Nodup
  unused : ∀ constant ∈ constants, constant.name ∉ used

theorem AreNew.nil (used : List String) : AreNew used [] :=
  ⟨List.nodup_nil, fun _ member => absurd member List.not_mem_nil⟩

theorem AreNew.mono {used fewer : List String} {constants : List SkolemConstant}
    (new : AreNew used constants) (subset : fewer ⊆ used) : AreNew fewer constants :=
  ⟨new.distinct, fun constant member inside => new.unused constant member (subset inside)⟩

/-- Constants that come later are new beside those that came first. -/
theorem areNew_append {used : List String} {first later : List SkolemConstant} :
    AreNew used (first ++ later) ↔
      AreNew used first ∧ AreNew (used ++ first.map SkolemConstant.name) later := by
  constructor
  · rintro ⟨distinct, unused⟩
    rw [List.map_append, List.nodup_append] at distinct
    obtain ⟨firstDistinct, laterDistinct, apart⟩ := distinct
    refine ⟨⟨firstDistinct, fun constant member => unused constant (List.mem_append_left _ member)⟩,
      laterDistinct, fun constant member inside => ?_⟩
    rcases List.mem_append.mp inside with isUsed | inFirst
    · exact unused constant (List.mem_append_right _ member) isUsed
    · exact apart _ inFirst _ (List.mem_map_of_mem member) rfl
  · rintro ⟨firstNew, laterNew⟩
    constructor
    · rw [List.map_append, List.nodup_append]
      refine ⟨firstNew.distinct, laterNew.distinct, fun name inFirst other inLater same => ?_⟩
      obtain ⟨constant, member, rfl⟩ := List.mem_map.mp inLater
      exact laterNew.unused constant member (List.mem_append_right _ (same ▸ inFirst))
    · intro constant member inside
      rcases List.mem_append.mp member with inFirst | inLater
      · exact firstNew.unused constant inFirst inside
      · exact laterNew.unused constant inLater (List.mem_append_left _ inside)

def namesInUse (known : List String) (introduced : List SkolemConstant) : List String :=
  known ++ introduced.map SkolemConstant.name

@[simp] theorem mem_namesInUse {known : List String} {introduced : List SkolemConstant}
    {name : String} :
    name ∈ namesInUse known introduced ↔
      name ∈ known ∨ ∃ constant ∈ introduced, constant.name = name := by
  simp [namesInUse]

theorem namesInUse_append (known : List String) (introduced later : List SkolemConstant) :
    namesInUse known (introduced ++ later) =
      namesInUse known introduced ++ later.map SkolemConstant.name := by
  rw [namesInUse, namesInUse, List.map_append, List.append_assoc]

namespace SkolemNaming

/-- The names that are chosen are not among `known` and differ from each other. -/
def Fresh (naming : SkolemNaming) (known : List String) : Prop :=
  ∀ introduced name, naming introduced name ∉ namesInUse known introduced

variable {naming : SkolemNaming}

@[simp] theorem replaced_introduce (naming : SkolemNaming) (introduced : List SkolemConstant)
    (binders : List String) :
    (naming.introduce introduced binders).map SkolemConstant.replaced = binders := by
  induction binders generalizing introduced with
  | nil => rfl
  | cons name binders induction => simp [introduce, induction]

@[simp] theorem length_introduce (introduced : List SkolemConstant) (binders : List String) :
    (naming.introduce introduced binders).length = binders.length := by
  have lengths := congrArg List.length (replaced_introduce naming introduced binders)
  rwa [List.length_map] at lengths

theorem bindings_introduce (introduced : List SkolemConstant) (binders : List String) :
    Bindings.ofPairs ((naming.introduce introduced binders).map SkolemConstant.binding) =
      choiceBindings binders ((naming.introduce introduced binders).map SkolemConstant.name) := by
  rw [choiceBindings]
  congr 1
  induction binders generalizing introduced with
  | nil => rfl
  | cons name binders induction =>
      simp only [introduce, List.map_cons, List.zip_cons_cons, induction]
      rfl

theorem Fresh.areNew_introduce {known : List String} (fresh : naming.Fresh known)
    (introduced : List SkolemConstant) (binders : List String) :
    AreNew (namesInUse known introduced) (naming.introduce introduced binders) := by
  induction binders generalizing introduced with
  | nil => exact .nil _
  | cons name binders induction =>
      have later := induction (introduced ++ [⟨naming introduced name, name⟩])
      rw [namesInUse_append] at later
      refine areNew_append.mpr ⟨⟨by simp, fun constant member => ?_⟩, later⟩
      rw [List.mem_singleton.mp member]
      exact fresh introduced name

theorem Fresh.areNew_skolemizeParts {known : List String} {bindings : Bindings}
    {introduced : List SkolemConstant} {parts : List Formula}
    (each : ∀ part ∈ parts, ∀ introduced, AreNew (namesInUse known introduced)
      (part.skolemizeWith naming bindings introduced).2) :
    AreNew (namesInUse known introduced)
      (Formula.skolemizeParts naming bindings introduced parts).2 := by
  induction parts generalizing introduced with
  | nil => exact .nil _
  | cons part parts induction =>
      refine areNew_append.mpr ⟨each part List.mem_cons_self introduced, ?_⟩
      rw [← namesInUse_append]
      exact induction fun later member => each later (List.mem_cons_of_mem part member)

/-- A supply of fresh names makes all constants of a run new. -/
theorem Fresh.areNew_skolemizeWith {known : List String} (fresh : naming.Fresh known)
    (bindings : Bindings) (introduced : List SkolemConstant) (formula : Formula) :
    AreNew (namesInUse known introduced)
      (formula.skolemizeWith naming bindings introduced).2 := by
  induction formula generalizing bindings introduced with
  | truth => exact .nil _
  | falsity => exact .nil _
  | atom predicate arguments => exact .nil _
  | equal left right => exact .nil _
  | not operand => exact .nil _
  | implies premise consequent => exact .nil _
  | forAll binders body => exact .nil _
  | and parts induction =>
      exact areNew_skolemizeParts fun part member => induction part member bindings
  | or parts induction =>
      exact areNew_skolemizeParts fun part member => induction part member bindings
  | forSome binders body induction =>
      refine areNew_append.mpr ⟨fresh.areNew_introduce introduced binders, ?_⟩
      rw [← namesInUse_append]
      exact induction _ _

theorem Fresh.areNew_skolemizeAll {known : List String} (fresh : naming.Fresh known)
    (formulas : List Formula) : AreNew known (Formula.skolemizeAll naming formulas).2 := by
  have new : AreNew (namesInUse known []) (Formula.skolemizeAll naming formulas).2 :=
    areNew_skolemizeParts fun formula _ introduced =>
      fresh.areNew_skolemizeWith [] introduced formula
  exact new.mono fun name member => mem_namesInUse.mpr (.inl member)

end SkolemNaming

namespace Structure

variable {model : Structure.{u}} {range : model.Range}

/-! ## Readings -/

def AgreeOn (names : List String) (reading other : model.Reading) : Prop :=
  ∀ name ∈ names, reading name = other name

theorem AgreeOn.mono {names fewer : List String} {reading other : model.Reading}
    (agree : AgreeOn names reading other) (subset : fewer ⊆ names) :
    AgreeOn fewer reading other :=
  fun name member => agree name (subset member)

theorem AgreeOn.trans {names : List String} {first second third : model.Reading}
    (firstAgree : AgreeOn names first second) (secondAgree : AgreeOn names second third) :
    AgreeOn names first third :=
  fun name member => (firstAgree name member).trans (secondAgree name member)

/-- The readings differ in what the names stand for, if anywhere. -/
def AgreeOff (names : List String) (reading other : model.Reading) : Prop :=
  ∀ name, name ∉ names → reading name = other name

theorem AgreeOff.refl (names : List String) (reading : model.Reading) :
    AgreeOff names reading reading :=
  fun _ _ => rfl

theorem AgreeOff.append {first later : List String} {reading middle other : model.Reading}
    (firstAgree : AgreeOff first reading middle) (laterAgree : AgreeOff later middle other) :
    AgreeOff (first ++ later) reading other := by
  intro name outside
  rw [List.mem_append, not_or] at outside
  exact (firstAgree name outside.1).trans (laterAgree name outside.2)

theorem AgreeOff.agreeOn {used : List String} {constants : List SkolemConstant}
    {reading other : model.Reading}
    (agree : AgreeOff (constants.map SkolemConstant.name) reading other)
    (new : AreNew used constants) : AgreeOn used reading other := by
  intro name isUsed
  refine agree name fun isNew => ?_
  obtain ⟨constant, member, rfl⟩ := List.mem_map.mp isNew
  exact new.unused constant member isUsed

/-- Distinct names can be given any elements, and other names keep theirs. -/
theorem exists_reading {names : List String} {elements : List model.Element}
    (distinct : names.Nodup) (lengths : names.length = elements.length)
    (reading : model.Reading) :
    ∃ other : model.Reading, names.map other = elements ∧ AgreeOff names reading other := by
  induction names generalizing elements with
  | nil => exact ⟨reading, (List.length_eq_zero_iff.mp lengths.symm).symm, fun _ _ => rfl⟩
  | cons first names induction =>
      rcases elements with _ | ⟨element, elements⟩
      · simp at lengths
      · obtain ⟨outside, distinctRest⟩ := List.nodup_cons.mp distinct
        obtain ⟨other, values, kept⟩ := induction distinctRest (by simpa using lengths)
        refine ⟨Function.update other first element, ?_, fun name apart => ?_⟩
        · have rest : names.map (Function.update other first element) = names.map other :=
            List.map_congr_left fun name member =>
              Function.update_of_ne (fun same : name = first => outside (same ▸ member)) _ _
          rw [List.map_cons, Function.update_self, rest, values]
        · simp only [List.mem_cons, not_or] at apart
          rw [Function.update_of_ne apart.1]
          exact kept name apart.2

/-! ## From formulas to their Skolemized forms -/

/-- What Skolemization asks of the formula and of the bindings met on the way to it: the names that
stand for themselves are used already. -/
structure Skolemizable (used : List String) (bindings : Bindings) (formula : Formula) : Prop where
  ground : bindings.Ground
  targets : bindings.targets ⊆ used
  names : formula.groundNameOccurrences bindings.keys ⊆ used

variable {naming : SkolemNaming} {used : List String} {introduced : List SkolemConstant}
  {bindings : Bindings} {assignment : model.Assignment}

theorem Skolemizable.mono {formula : Formula} {more : List String}
    (able : Skolemizable used bindings formula) (subset : used ⊆ more) :
    Skolemizable more bindings formula where
  ground := able.ground
  targets := List.Subset.trans able.targets subset
  names := List.Subset.trans able.names subset

theorem Skolemizable.under_congr {formula : Formula}
    (able : Skolemizable used bindings formula) {reading other : model.Reading}
    (agree : AgreeOn used reading other) :
    assignment.under bindings reading = assignment.under bindings other := by
  have values := Bindings.values_congr able.ground fun name member =>
    agree name (able.targets member)
  funext name
  rw [Assignment.under, Assignment.under, values]

theorem Skolemizable.holds_congr {formula : Formula}
    (able : Skolemizable used bindings formula) {reading other : model.Reading}
    (agree : AgreeOn used reading other) :
    Holds range reading (assignment.under bindings reading) formula ↔
      Holds range other (assignment.under bindings other) formula := by
  rw [able.under_congr agree]
  exact holds_congr_reading (fun _ => Assignment.under_isSome)
    fun name member => agree name (able.names member)

theorem Skolemizable.part {formula part : Formula} {parts : List Formula}
    (able : Skolemizable used bindings formula) (member : part ∈ parts)
    (names : parts.flatMap (Formula.groundNameOccurrences bindings.keys) ⊆
      formula.groundNameOccurrences bindings.keys) :
    Skolemizable used bindings part where
  ground := able.ground
  targets := able.targets
  names := fun _ inside => able.names (names (List.mem_flatMap.mpr ⟨part, member, inside⟩))

theorem Skolemizable.body {binders names : List String} {body : Formula}
    (able : Skolemizable used bindings (.forSome binders body))
    (lengths : binders.length = names.length) :
    Skolemizable (used ++ names) (choiceBindings binders names ++ bindings) body where
  ground := (Bindings.Ground.choiceBindings _ _).append able.ground
  targets := by
    intro name member
    rw [Bindings.targets_append, List.mem_append] at member
    rw [List.mem_append]
    exact member.symm.imp (fun inside => able.targets inside)
      (fun inside => Bindings.targets_choiceBindings_subset _ _ inside)
  names := by
    rw [Formula.groundNameOccurrences_congr body
      (Bindings.mem_keys_choiceBindings_append lengths bindings)]
    exact List.Subset.trans able.names (List.subset_append_left used names)

theorem holds_substitute_of_ground (ground : bindings.Ground) (reading : model.Reading)
    (formula : Formula) :
    Holds range reading Assignment.unbound (formula.substitute bindings) ↔
      Holds range reading (bindings.values reading) formula := by
  rw [holds_substitute ground, Assignment.under_unbound]

/-- The reading gives the new constants values in their ranges such that the claim is true, whatever
the names that are introduced later stand for. -/
structure Realizes (range : model.Range) (used : List String) (constants : List SkolemConstant)
    (claim : model.Reading → Prop) (reading : model.Reading) : Prop where
  ranges : ∀ constant ∈ constants, range constant.replaced (reading constant.name)
  holds : ∀ final : model.Reading,
    AgreeOn (used ++ constants.map SkolemConstant.name) reading final → claim final

theorem exists_realizes_substitute {formula : Formula} (ground : bindings.Ground)
    (plain : formula.skolemizeWith naming bindings introduced =
      (formula.substitute bindings, [])) (reading : model.Reading) :
    ∃ other, AgreeOff
        ((formula.skolemizeWith naming bindings introduced).2.map SkolemConstant.name)
        reading other ∧
      Realizes range used (formula.skolemizeWith naming bindings introduced).2
        (fun final => Holds range final (assignment.under bindings final) formula →
          Holds range final assignment (formula.skolemizeWith naming bindings introduced).1)
        other := by
  rw [plain]
  exact ⟨reading, .refl _ reading, by simp,
    fun final _ holds => (holds_substitute ground formula).mpr holds⟩

theorem exists_realizesParts {parts : List Formula}
    (each : ∀ part ∈ parts, ∀ {used : List String} {introduced : List SkolemConstant}
      (reading : model.Reading), Skolemizable used bindings part →
        AreNew used (part.skolemizeWith naming bindings introduced).2 →
        ∃ other, AgreeOff
            ((part.skolemizeWith naming bindings introduced).2.map SkolemConstant.name)
            reading other ∧
          Realizes range used (part.skolemizeWith naming bindings introduced).2
            (fun final => Holds range final (assignment.under bindings final) part →
              Holds range final assignment (part.skolemizeWith naming bindings introduced).1)
            other)
    (able : ∀ part ∈ parts, Skolemizable used bindings part)
    (new : AreNew used (Formula.skolemizeParts naming bindings introduced parts).2)
    (reading : model.Reading) :
    ∃ other, AgreeOff
        ((Formula.skolemizeParts naming bindings introduced parts).2.map SkolemConstant.name)
        reading other ∧
      Realizes range used (Formula.skolemizeParts naming bindings introduced parts).2
        (fun final => List.Forall₂
          (fun part form => Holds range final (assignment.under bindings final) part →
            Holds range final assignment form)
          parts (Formula.skolemizeParts naming bindings introduced parts).1)
        other := by
  induction parts generalizing used introduced reading with
  | nil =>
      exact ⟨reading, .refl _ reading, by simp [Formula.skolemizeParts], fun _ _ => .nil⟩
  | cons part parts induction =>
      set first := part.skolemizeWith naming bindings introduced with firstDef
      simp only [Formula.skolemizeParts, ← firstDef] at new ⊢
      obtain ⟨firstNew, laterNew⟩ := areNew_append.mp new
      obtain ⟨middle, kept, realizes⟩ := each part (by simp) reading (able part (by simp)) firstNew
      obtain ⟨other, keptLater, realizesLater⟩ :=
        induction (fun later member => each later (List.mem_cons_of_mem part member))
          (fun later member => (able later (List.mem_cons_of_mem part member)).mono
            (List.subset_append_left used _)) laterNew middle
      have agreeLater := keptLater.agreeOn laterNew
      refine ⟨other, ?_, ?_, fun final agree => ?_⟩
      · rw [List.map_append]
        exact kept.append keptLater
      · intro constant member
        rcases List.mem_append.mp member with inFirst | inLater
        · have value : middle constant.name = other constant.name :=
            agreeLater constant.name (List.mem_append_right _ (List.mem_map_of_mem inFirst))
          exact value ▸ realizes.ranges constant inFirst
        · exact realizesLater.ranges constant inLater
      · rw [List.map_append, ← List.append_assoc] at agree
        refine .cons (realizes.holds final ?_) (realizesLater.holds final agree)
        exact agreeLater.trans (agree.mono (List.subset_append_left _ _))

variable {reading : model.Reading} {other : model.Assignment}

theorem allHold_of_forall₂ {parts forms : List Formula}
    (implied : List.Forall₂ (fun part form => Holds range reading assignment part →
      Holds range reading other form) parts forms)
    (holds : AllHold range reading assignment parts) : AllHold range reading other forms := by
  induction implied with
  | nil => trivial
  | cons headImplied _ induction => exact ⟨headImplied holds.1, induction holds.2⟩

theorem anyHolds_of_forall₂ {parts forms : List Formula}
    (implied : List.Forall₂ (fun part form => Holds range reading assignment part →
      Holds range reading other form) parts forms)
    (holds : AnyHolds range reading assignment parts) : AnyHolds range reading other forms := by
  induction implied with
  | nil => exact holds
  | cons headImplied _ induction => exact holds.imp headImplied induction

/-- Witnesses if some elements make the formula true, and any elements in range if none do. -/
theorem exists_witnesses (inhabited : ∀ name, ∃ element, range name element)
    (reading : model.Reading) (assignment : model.Assignment) (binders : List String)
    (body : Formula) :
    ∃ elements, List.Forall₂ range binders elements ∧
      (Holds range reading assignment (.forSome binders body) →
        Holds range reading (assignment.bind binders elements) body) := by
  by_cases holds : Holds range reading assignment (.forSome binders body)
  · obtain ⟨elements, ranges, bodyHolds⟩ := holds
    exact ⟨elements, ranges, fun _ => bodyHolds⟩
  · obtain ⟨elements, ranges⟩ := exists_ranges inhabited binders
    exact ⟨elements, ranges, fun contrary => absurd contrary holds⟩

/-- The new constants for binders can be given any elements in range. -/
theorem exists_reading_introduce {binders : List String} {elements : List model.Element}
    (distinct : ((naming.introduce introduced binders).map SkolemConstant.name).Nodup)
    (ranges : List.Forall₂ range binders elements) (reading : model.Reading) :
    ∃ start, AgreeOff ((naming.introduce introduced binders).map SkolemConstant.name)
        reading start ∧
      ((naming.introduce introduced binders).map SkolemConstant.name).map start = elements ∧
      ∀ constant ∈ naming.introduce introduced binders,
        range constant.replaced (start constant.name) := by
  set constants := naming.introduce introduced binders with constantsDef
  have lengths : (constants.map SkolemConstant.name).length = elements.length := by
    rw [List.length_map, constantsDef, SkolemNaming.length_introduce, ranges.length_eq]
  obtain ⟨start, values, kept⟩ := exists_reading distinct lengths reading
  refine ⟨start, kept, values, ?_⟩
  have newRanges : List.Forall₂ range (constants.map SkolemConstant.replaced)
      (constants.map (start ∘ SkolemConstant.name)) := by
    rw [constantsDef, SkolemNaming.replaced_introduce, ← constantsDef, ← List.map_map, values]
    exact ranges
  rw [List.forall₂_map_left_iff, List.forall₂_map_right_iff, List.forall₂_same] at newRanges
  exact newRanges

theorem exists_realizes (inhabited : ∀ name, ∃ element, range name element)
    (formula : Formula) (able : Skolemizable used bindings formula)
    (new : AreNew used (formula.skolemizeWith naming bindings introduced).2)
    (reading : model.Reading) :
    ∃ other, AgreeOff
        ((formula.skolemizeWith naming bindings introduced).2.map SkolemConstant.name)
        reading other ∧
      Realizes range used (formula.skolemizeWith naming bindings introduced).2
        (fun final => Holds range final (assignment.under bindings final) formula →
          Holds range final assignment (formula.skolemizeWith naming bindings introduced).1)
        other := by
  induction formula generalizing used introduced bindings reading with
  | truth => exact exists_realizes_substitute able.ground rfl reading
  | falsity => exact exists_realizes_substitute able.ground rfl reading
  | atom predicate arguments => exact exists_realizes_substitute able.ground rfl reading
  | equal left right => exact exists_realizes_substitute able.ground rfl reading
  | not operand => exact exists_realizes_substitute able.ground rfl reading
  | implies premise consequent => exact exists_realizes_substitute able.ground rfl reading
  | forAll binders body => exact exists_realizes_substitute able.ground rfl reading
  | and parts induction =>
      obtain ⟨other, kept, realizes⟩ := exists_realizesParts
        (fun part member _ _ reading able new => induction part member able new reading)
        (fun part member => able.part member (by simp [Formula.groundNameOccurrences])) new reading
      exact ⟨other, kept, realizes.ranges, fun final agree holds =>
        allHold_of_forall₂ (realizes.holds final agree) holds⟩
  | or parts induction =>
      obtain ⟨other, kept, realizes⟩ := exists_realizesParts
        (fun part member _ _ reading able new => induction part member able new reading)
        (fun part member => able.part member (by simp [Formula.groundNameOccurrences])) new reading
      exact ⟨other, kept, realizes.ranges, fun final agree holds =>
        anyHolds_of_forall₂ (realizes.holds final agree) holds⟩
  | forSome binders body induction =>
      simp only [Formula.skolemizeWith, SkolemNaming.bindings_introduce] at new ⊢
      set constants := naming.introduce introduced binders with constantsDef
      set names := constants.map SkolemConstant.name with namesDef
      obtain ⟨constantsNew, laterNew⟩ := areNew_append.mp new
      have ableBody : Skolemizable (used ++ names) (choiceBindings binders names ++ bindings) body :=
        able.body (by simp [namesDef, constantsDef])
      -- The constants for the binders come first; what the body introduces leaves them alone.
      obtain ⟨elements, ranges, witnessed⟩ := exists_witnesses inhabited reading
        (assignment.under bindings reading) binders body
      obtain ⟨start, keptStart, values, newRanges⟩ :=
        exists_reading_introduce constantsNew.distinct ranges reading
      have agreeStart := keptStart.agreeOn constantsNew
      obtain ⟨other, kept, realizes⟩ := induction ableBody laterNew start
      have agreeOther := kept.agreeOn laterNew
      refine ⟨other, ?_, ?_, ?_⟩
      · rw [List.map_append]
        exact keptStart.append kept
      · intro constant member
        rcases List.mem_append.mp member with isNew | isLater
        · have value : start constant.name = other constant.name :=
            agreeOther constant.name (List.mem_append_right _ (List.mem_map_of_mem isNew))
          exact value ▸ newRanges constant isNew
        · exact realizes.ranges constant isLater
      · intro final agree holds
        rw [List.map_append, ← List.append_assoc] at agree
        refine realizes.holds final agree ?_
        have agreeFinal : AgreeOn (used ++ names) start final :=
          agreeOther.trans (agree.mono (List.subset_append_left _ _))
        rw [← able.holds_congr (agreeStart.trans
          (agreeFinal.mono (List.subset_append_left _ _)))] at holds
        rw [← ableBody.holds_congr agreeFinal, Assignment.under_choiceBindings, values,
          ← able.under_congr agreeStart,
          ← holds_congr_reading
            (Assignment.bind_isSome_of_mem_append (fun _ => Assignment.under_isSome) ranges)
            fun name member => agreeStart name (able.names member)]
        exact witnessed holds

/-- New constants can be read such that, where formulas are true, their Skolemized forms are,
whatever other names stand for. -/
theorem exists_realizes_skolemizeAll {known : List String}
    (inhabited : ∀ name, ∃ element, range name element)
    (fresh : naming.Fresh known) {formulas : List Formula}
    (names : ∀ formula ∈ formulas, formula.groundNameOccurrences [] ⊆ known)
    (reading : model.Reading) :
    ∃ other, AgreeOn known reading other ∧
      (∀ constant ∈ (Formula.skolemizeAll naming formulas).2,
        range constant.replaced (other constant.name)) ∧
      ((∀ formula ∈ formulas, Holds range reading Assignment.unbound formula) →
        ∀ final : model.Reading,
          AgreeOn (namesInUse known (Formula.skolemizeAll naming formulas).2) other final →
          ∀ goal ∈ (Formula.skolemizeAll naming formulas).1,
            Holds range final Assignment.unbound goal) := by
  have able : ∀ formula ∈ formulas, Skolemizable known [] formula :=
    fun formula member => ⟨.nil, by simp [Bindings.targets], names formula member⟩
  have new := fresh.areNew_skolemizeAll formulas
  obtain ⟨other, kept, realizes⟩ := exists_realizesParts
    (fun formula _ _ _ reading able new => exists_realizes inhabited formula able new reading)
    able new reading
  have agreeOther := kept.agreeOn new
  refine ⟨other, agreeOther, realizes.ranges, fun holds final agree => ?_⟩
  rw [← allHold_iff]
  refine allHold_of_forall₂ (realizes.holds final agree) ?_
  rw [allHold_iff]
  intro formula member
  exact ((able formula member).holds_congr
    (agreeOther.trans (agree.mono (List.subset_append_left _ _)))).mp (holds formula member)

/-! ## From Skolemized forms to the formulas -/

theorem forall₂_of_skolemizeParts {parts : List Formula}
    (each : ∀ part ∈ parts, ∀ introduced,
      (∀ constant ∈ (part.skolemizeWith naming bindings introduced).2,
        range constant.replaced (reading constant.name)) →
      Holds range reading assignment (part.skolemizeWith naming bindings introduced).1 →
      Holds range reading (assignment.under bindings reading) part)
    (ranges : ∀ constant ∈ (Formula.skolemizeParts naming bindings introduced parts).2,
      range constant.replaced (reading constant.name)) :
    List.Forall₂ (fun form part => Holds range reading assignment form →
        Holds range reading (assignment.under bindings reading) part)
      (Formula.skolemizeParts naming bindings introduced parts).1 parts :=
  (Formula.forall₂_skolemizeParts each ranges).flip

theorem holds_of_skolemizeWith {formula : Formula} (ground : bindings.Ground)
    (ranges : ∀ constant ∈ (formula.skolemizeWith naming bindings introduced).2,
      range constant.replaced (reading constant.name))
    (holds : Holds range reading assignment
      (formula.skolemizeWith naming bindings introduced).1) :
    Holds range reading (assignment.under bindings reading) formula := by
  induction formula generalizing introduced bindings with
  | truth => exact (holds_substitute ground _).mp holds
  | falsity => exact (holds_substitute ground _).mp holds
  | atom predicate arguments => exact (holds_substitute ground _).mp holds
  | equal left right => exact (holds_substitute ground _).mp holds
  | not operand => exact (holds_substitute ground _).mp holds
  | implies premise consequent => exact (holds_substitute ground _).mp holds
  | forAll binders body => exact (holds_substitute ground _).mp holds
  | and parts induction =>
      exact allHold_of_forall₂
        (forall₂_of_skolemizeParts (fun part member _ => induction part member ground) ranges) holds
  | or parts induction =>
      exact anyHolds_of_forall₂
        (forall₂_of_skolemizeParts (fun part member _ => induction part member ground) ranges) holds
  | forSome binders body induction =>
      simp only [Formula.skolemizeWith, SkolemNaming.bindings_introduce, List.mem_append]
        at ranges holds
      set constants := naming.introduce introduced binders with constantsDef
      have newRanges : List.Forall₂ range (constants.map SkolemConstant.replaced)
          (constants.map (reading ∘ SkolemConstant.name)) := by
        rw [List.forall₂_map_left_iff, List.forall₂_map_right_iff, List.forall₂_same]
        exact fun constant member => ranges constant (.inl member)
      rw [constantsDef, SkolemNaming.replaced_introduce, ← List.map_map] at newRanges
      refine ⟨_, newRanges, ?_⟩
      rw [← Assignment.under_choiceBindings]
      exact induction ((Bindings.Ground.choiceBindings _ _).append ground)
        (fun constant member => ranges constant (.inr member)) holds

theorem holds_of_skolemizeAll {formulas : List Formula}
    (ranges : ∀ constant ∈ (Formula.skolemizeAll naming formulas).2,
      range constant.replaced (reading constant.name))
    (holds : ∀ goal ∈ (Formula.skolemizeAll naming formulas).1,
      Holds range reading Assignment.unbound goal) :
    ∀ formula ∈ formulas, Holds range reading Assignment.unbound formula := by
  rw [← allHold_iff] at holds ⊢
  exact allHold_of_forall₂ (forall₂_of_skolemizeParts
    (fun _ _ _ => holds_of_skolemizeWith Bindings.Ground.nil) ranges) holds

/-- A formula is true just if its Skolemized form is with some elements in range for the new
constants, in place of what their names stood for. -/
theorem holds_iff_exists_skolemize (inhabited : ∀ name, ∃ element, range name element)
    {formula : Formula}
    (new : AreNew (formula.groundNameOccurrences []) (formula.skolemize naming introduced).2) :
    Holds range reading assignment formula ↔
      ∃ other, AgreeOff ((formula.skolemize naming introduced).2.map SkolemConstant.name)
          reading other ∧
        (∀ constant ∈ (formula.skolemize naming introduced).2,
          range constant.replaced (other constant.name)) ∧
        Holds range other assignment (formula.skolemize naming introduced).1 := by
  have able : Skolemizable (formula.groundNameOccurrences []) [] formula :=
    ⟨.nil, by simp [Bindings.targets], fun _ member => member⟩
  constructor
  · intro holds
    obtain ⟨other, agree, realizes⟩ := exists_realizes inhabited formula able new reading
    refine ⟨other, agree, realizes.ranges, realizes.holds other (fun _ _ => rfl) ?_⟩
    exact (able.holds_congr (agree.agreeOn new)).mp holds
  · rintro ⟨other, agree, ranges, holds⟩
    exact (able.holds_congr (agree.agreeOn new)).mpr (holds_of_skolemizeWith .nil ranges holds)

end Structure

/-! ## Normal forms -/

namespace Formula

theorem IsLiteral.substitute {formula : Formula} (literal : formula.IsLiteral)
    (bindings : Bindings) : (formula.substitute bindings).IsLiteral := by
  cases literal <;> constructor

theorem IsNormal.substitute {formula : Formula} (normal : formula.IsNormal)
    (bindings : Bindings) : (formula.substitute bindings).IsNormal := by
  induction normal generalizing bindings with
  | literal literal => exact .literal (literal.substitute bindings)
  | and _ induction =>
      refine .and fun part member => ?_
      rw [substituteParts_eq_map] at member
      obtain ⟨before, inside, rfl⟩ := List.mem_map.mp member
      exact induction before inside bindings
  | or _ induction =>
      refine .or fun part member => ?_
      rw [substituteParts_eq_map] at member
      obtain ⟨before, inside, rfl⟩ := List.mem_map.mp member
      exact induction before inside bindings
  | forAll binders _ induction => exact .forAll binders (induction _)
  | forSome binders _ induction => exact .forSome binders (induction _)

variable {naming : SkolemNaming} {bindings : Bindings} {introduced : List SkolemConstant}

theorem IsLiteral.skolemizeWith {formula : Formula} (literal : formula.IsLiteral) :
    formula.skolemizeWith naming bindings introduced = (formula.substitute bindings, []) := by
  cases literal <;> rfl

theorem IsNormal.skolemizeWith {formula : Formula} (normal : formula.IsNormal) :
    (formula.skolemizeWith naming bindings introduced).1.IsNormal := by
  induction normal generalizing bindings introduced with
  | literal literal =>
      rw [literal.skolemizeWith]
      exact .literal (literal.substitute bindings)
  | and _ induction =>
      exact .and (forall_mem_skolemizeParts (fun part member _ _ => induction part member)
        fun _ _ => trivial)
  | or _ induction =>
      exact .or (forall_mem_skolemizeParts (fun part member _ _ => induction part member)
        fun _ _ => trivial)
  | forAll binders normal _ => exact .forAll binders (normal.substitute _)
  | forSome binders _ induction => exact induction

theorem isNormal_skolemizeAll {formulas : List Formula}
    (normal : ∀ formula ∈ formulas, formula.IsNormal) :
    ∀ goal ∈ (skolemizeAll naming formulas).1, goal.IsNormal :=
  forall_mem_skolemizeParts (fun formula member _ _ => (normal formula member).skolemizeWith)
    fun _ _ => trivial

end Formula

end Ergo
