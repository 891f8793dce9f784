import Ergo.FreshName
import Ergo.Proofs.Formula.Skolem

/-!
What Skolemization gives. Main statement: `skolemizesExactly`. The constants are put into the body of
an existential quantifier at once, and what results is Skolemized in its turn: this comes to an end,
and to what Skolemization with all bindings at hand gives. No existential quantifier is left outside
the universal ones, these keep their form but for the new constants, and a structure makes the formula
true just if it makes the Skolemized form true with some elements for the constants.
-/

namespace Ergo

universe u

/-! ## Skolemization of what results -/

/-- Skolemization goes no further into the formula. -/
def Formula.isLeft : Formula → Bool
  | .forSome _ _ => false
  | .and _ => false
  | .or _ => false
  | _ => true

mutual
/-- After the constants `introduced` before, the formula has a Skolemized form, with constants that are
introduced for it. An existential quantifier gives way to its body with the constants put in, and what
results is Skolemized further. -/
inductive Skolemizes (naming : SkolemNaming) :
    List SkolemConstant → Formula → Formula → List SkolemConstant → Prop
  | forSome {introduced later : List SkolemConstant} {binders : List String}
      {body replaced form : Formula} :
      Formula.ReplacesFree
        (Bindings.ofPairs ((naming.introduce introduced binders).map SkolemConstant.binding)) []
        body replaced →
      Skolemizes naming (introduced ++ naming.introduce introduced binders) replaced form later →
      Skolemizes naming introduced (.forSome binders body) form
        (naming.introduce introduced binders ++ later)
  | and {introduced constants : List SkolemConstant} {parts forms : List Formula} :
      SkolemizesParts naming introduced parts forms constants →
      Skolemizes naming introduced (.and parts) (.and forms) constants
  | or {introduced constants : List SkolemConstant} {parts forms : List Formula} :
      SkolemizesParts naming introduced parts forms constants →
      Skolemizes naming introduced (.or parts) (.or forms) constants
  | left {introduced : List SkolemConstant} {formula : Formula} : formula.isLeft →
      Skolemizes naming introduced formula formula []

/-- The parts are Skolemized from the left, each after the constants introduced for those before. -/
inductive SkolemizesParts (naming : SkolemNaming) :
    List SkolemConstant → List Formula → List Formula → List SkolemConstant → Prop
  | nil {introduced : List SkolemConstant} : SkolemizesParts naming introduced [] [] []
  | cons {introduced constants later : List SkolemConstant} {part form : Formula}
      {parts forms : List Formula} :
      Skolemizes naming introduced part form constants →
      SkolemizesParts naming (introduced ++ constants) parts forms later →
      SkolemizesParts naming introduced (part :: parts) (form :: forms) (constants ++ later)
end

variable {naming : SkolemNaming} {introduced : List SkolemConstant} {bindings : Bindings}

/-- The body of an existential quantifier under bindings, with the new constants put in for its
variables. -/
theorem SkolemNaming.replacesFree_body (ground : bindings.Ground) (binders : List String)
    (body : Formula) :
    Formula.ReplacesFree
      (Bindings.ofPairs ((naming.introduce introduced binders).map SkolemConstant.binding)) []
      (body.substitute (bindings.hide binders))
      (body.substitute
        (Bindings.ofPairs ((naming.introduce introduced binders).map SkolemConstant.binding) ++
          bindings)) := by
  rw [Formula.replacesFree_iff, Bindings.hide_nil, bindings_introduce,
    Formula.substitute_hide_choiceBindings ground (by simp)]

theorem skolemizesParts_substitute {parts : List Formula}
    (each : ∀ part ∈ parts, ∀ introduced, Skolemizes naming introduced (part.substitute bindings)
      (part.skolemizeWith naming bindings introduced).1
      (part.skolemizeWith naming bindings introduced).2) :
    SkolemizesParts naming introduced (Formula.substituteParts bindings parts)
      (Formula.skolemizeParts naming bindings introduced parts).1
      (Formula.skolemizeParts naming bindings introduced parts).2 := by
  induction parts generalizing introduced with
  | nil => exact .nil
  | cons part parts induction =>
      exact .cons (each part List.mem_cons_self introduced)
        (induction fun later member => each later (List.mem_cons_of_mem part member))

/-- To carry the bindings along is to put them in at once. -/
theorem skolemizes_substitute (ground : bindings.Ground) (formula : Formula) :
    Skolemizes naming introduced (formula.substitute bindings)
      (formula.skolemizeWith naming bindings introduced).1
      (formula.skolemizeWith naming bindings introduced).2 := by
  induction formula generalizing bindings introduced with
  | truth => exact .left rfl
  | falsity => exact .left rfl
  | atom predicate arguments => exact .left rfl
  | equal left right => exact .left rfl
  | not operand => exact .left rfl
  | implies premise consequent => exact .left rfl
  | forAll binders body => exact .left rfl
  | and parts induction =>
      exact .and (skolemizesParts_substitute fun part member _ => induction part member ground)
  | or parts induction =>
      exact .or (skolemizesParts_substitute fun part member _ => induction part member ground)
  | forSome binders body induction =>
      refine .forSome (SkolemNaming.replacesFree_body ground binders body) (induction ?_)
      rw [SkolemNaming.bindings_introduce]
      exact (Bindings.Ground.choiceBindings _ _).append ground

mutual
theorem Skolemizes.unique {naming : SkolemNaming} {introduced : List SkolemConstant}
    {formula form other : Formula} {constants others : List SkolemConstant} :
    Skolemizes naming introduced formula form constants →
      Skolemizes naming introduced formula other others → form = other ∧ constants = others
  | .forSome replaces rest, .forSome otherReplaces otherRest => by
      have same := Formula.replacesFree_iff.mp replaces
      rw [← Formula.replacesFree_iff.mp otherReplaces] at same
      subst same
      obtain ⟨rfl, rfl⟩ := rest.unique otherRest
      exact ⟨rfl, rfl⟩
  | .and parts, .and otherParts => by
      obtain ⟨rfl, rfl⟩ := parts.unique otherParts
      exact ⟨rfl, rfl⟩
  | .or parts, .or otherParts => by
      obtain ⟨rfl, rfl⟩ := parts.unique otherParts
      exact ⟨rfl, rfl⟩
  | .left _, .left _ => ⟨rfl, rfl⟩
  | .forSome _ _, .left left => nomatch left
  | .and _, .left left => nomatch left
  | .or _, .left left => nomatch left
  | .left left, .forSome _ _ => nomatch left
  | .left left, .and _ => nomatch left
  | .left left, .or _ => nomatch left

theorem SkolemizesParts.unique {naming : SkolemNaming} {introduced : List SkolemConstant}
    {parts forms other : List Formula} {constants others : List SkolemConstant} :
    SkolemizesParts naming introduced parts forms constants →
      SkolemizesParts naming introduced parts other others → forms = other ∧ constants = others
  | .nil, .nil => ⟨rfl, rfl⟩
  | .cons part rest, .cons otherPart otherRest => by
      obtain ⟨rfl, rfl⟩ := part.unique otherPart
      obtain ⟨rfl, rfl⟩ := rest.unique otherRest
      exact ⟨rfl, rfl⟩
end

theorem skolemizes_iff {formula form : Formula} {constants : List SkolemConstant} :
    Skolemizes naming introduced formula form constants ↔
      formula.skolemize naming introduced = (form, constants) := by
  have skolemizes : Skolemizes naming introduced (formula.substitute [])
      (formula.skolemize naming introduced).1 (formula.skolemize naming introduced).2 :=
    skolemizes_substitute .nil formula
  rw [Formula.substitute_nil] at skolemizes
  constructor
  · intro given
    exact Prod.ext_iff.mpr (skolemizes.unique given)
  · intro same
    rwa [same] at skolemizes

/-! ## Outer quantifiers -/

namespace Formula

mutual
/-- The variables of the existential quantifiers that stand under no universal one, from left to right,
and of each quantifier before those inside it. -/
def outerExistentials : Formula → List (List String)
  | .truth => []
  | .falsity => []
  | .atom _ _ => []
  | .equal _ _ => []
  | .not operand => operand.outerExistentials
  | .and parts => partsOuterExistentials parts
  | .or parts => partsOuterExistentials parts
  | .implies premise consequent => premise.outerExistentials ++ consequent.outerExistentials
  | .forAll _ _ => []
  | .forSome binders body => binders :: body.outerExistentials

def partsOuterExistentials : List Formula → List (List String)
  | [] => []
  | part :: parts => part.outerExistentials ++ partsOuterExistentials parts
end

theorem partsOuterExistentials_eq_nil {parts : List Formula}
    (each : ∀ part ∈ parts, part.outerExistentials = []) : partsOuterExistentials parts = [] := by
  induction parts with
  | nil => rfl
  | cons part parts induction =>
      obtain ⟨own, later⟩ := List.forall_mem_cons.mp each
      rw [partsOuterExistentials, own, induction later, List.append_nil]

theorem IsLiteral.outerExistentials_eq_nil {formula : Formula} (literal : formula.IsLiteral) :
    formula.outerExistentials = [] := by
  cases literal <;> rfl

end Formula

/-- A universal quantifier that stands under no other one, with the variables that the existential
quantifiers around it bind. -/
structure OuterUniversal where
  scope : List String
  binders : List String
  body : Formula

namespace Formula

mutual
/-- The universal quantifiers that stand under no other one, from left to right, in a formula inside
existential quantifiers that bind `scope`. -/
def outerUniversals (scope : List String) : Formula → List OuterUniversal
  | .truth => []
  | .falsity => []
  | .atom _ _ => []
  | .equal _ _ => []
  | .not operand => operand.outerUniversals scope
  | .and parts => partsOuterUniversals scope parts
  | .or parts => partsOuterUniversals scope parts
  | .implies premise consequent =>
      premise.outerUniversals scope ++ consequent.outerUniversals scope
  | .forAll binders body => [⟨scope, binders, body⟩]
  | .forSome binders body => body.outerUniversals (scope ++ binders)

def partsOuterUniversals (scope : List String) : List Formula → List OuterUniversal
  | [] => []
  | part :: parts => part.outerUniversals scope ++ partsOuterUniversals scope parts
end

theorem IsLiteral.outerUniversals_eq_nil {formula : Formula} (literal : formula.IsLiteral)
    (scope : List String) : formula.outerUniversals scope = [] := by
  cases literal <;> rfl

end Formula

/-! ## What Skolemization does to the outer quantifiers -/

theorem SkolemNaming.introduce_append (naming : SkolemNaming) (introduced : List SkolemConstant)
    (first later : List String) :
    naming.introduce introduced (first ++ later) =
      naming.introduce introduced first ++
        naming.introduce (introduced ++ naming.introduce introduced first) later := by
  induction first generalizing introduced with
  | nil => simp [introduce]
  | cons name first induction => simp [introduce, induction]

namespace Formula

theorem snd_skolemizeParts {parts : List Formula}
    (each : ∀ part ∈ parts, ∀ introduced, (part.skolemizeWith naming bindings introduced).2 =
      naming.introduce introduced part.outerExistentials.flatten) :
    (skolemizeParts naming bindings introduced parts).2 =
      naming.introduce introduced (partsOuterExistentials parts).flatten := by
  induction parts generalizing introduced with
  | nil => rfl
  | cons part parts induction =>
      rw [skolemizeParts, partsOuterExistentials, List.flatten_append,
        SkolemNaming.introduce_append, ← each part List.mem_cons_self,
        ← induction fun later member => each later (List.mem_cons_of_mem part member)]

/-- Each variable of an outer existential quantifier gets a constant, one after the other. -/
theorem IsNormal.snd_skolemizeWith {formula : Formula} (normal : formula.IsNormal) :
    (formula.skolemizeWith naming bindings introduced).2 =
      naming.introduce introduced formula.outerExistentials.flatten := by
  induction normal generalizing bindings introduced with
  | literal literal =>
      rw [literal.skolemizeWith, literal.outerExistentials_eq_nil]
      rfl
  | and _ induction => exact snd_skolemizeParts fun part member _ => induction part member
  | or _ induction => exact snd_skolemizeParts fun part member _ => induction part member
  | forAll binders _ _ => rfl
  | forSome binders _ induction =>
      rw [outerExistentials, List.flatten_cons, SkolemNaming.introduce_append, ← induction]
      rfl

theorem IsNormal.outerExistentials_skolemizeWith {formula : Formula} (normal : formula.IsNormal) :
    (formula.skolemizeWith naming bindings introduced).1.outerExistentials = [] := by
  induction normal generalizing bindings introduced with
  | literal literal =>
      rw [literal.skolemizeWith]
      exact (literal.substitute bindings).outerExistentials_eq_nil
  | and _ induction =>
      exact partsOuterExistentials_eq_nil
        (forall_mem_skolemizeParts (fun part member _ _ => induction part member) fun _ _ => trivial)
  | or _ induction =>
      exact partsOuterExistentials_eq_nil
        (forall_mem_skolemizeParts (fun part member _ _ => induction part member) fun _ _ => trivial)
  | forAll binders _ _ => rfl
  | forSome binders _ induction => exact induction

end Formula

/-- The second quantifier is the first one with some of the constants put in for the variables of its
scope, at their free occurrences, and with nothing else changed. -/
structure OuterUniversal.Receives (constants : List SkolemConstant) (before after : OuterUniversal) :
    Prop where
  scope : after.scope = []
  binders : after.binders = before.binders
  body : ∃ bindings : Bindings, bindings ⊆ constants.map SkolemConstant.binding ∧
    (∀ name, name ∈ bindings.keys ↔ name ∈ before.scope) ∧
    Formula.ReplacesFree bindings before.binders before.body after.body

/-- The bindings put some of the constants in for the variables of the scope. -/
structure Bindings.Covers (bindings : Bindings) (constants : List SkolemConstant)
    (scope : List String) : Prop where
  within : bindings ⊆ constants.map SkolemConstant.binding
  keys : ∀ name, name ∈ bindings.keys ↔ name ∈ scope

theorem Bindings.Covers.introduce {constants : List SkolemConstant} {scope : List String}
    (covers : bindings.Covers constants scope) {binders : List String}
    (within : naming.introduce introduced binders ⊆ constants) :
    Bindings.Covers
      (Bindings.ofPairs ((naming.introduce introduced binders).map SkolemConstant.binding) ++
        bindings) constants (scope ++ binders) where
  within := by
    refine List.append_subset.mpr ⟨?_, covers.within⟩
    rw [Bindings.ofPairs, List.reverse_subset]
    exact List.map_subset _ within
  keys name := by
    rw [SkolemNaming.bindings_introduce, Bindings.mem_keys_choiceBindings_append (by simp),
      List.mem_append, List.mem_append, covers.keys]

namespace Formula

variable {constants : List SkolemConstant} {scope : List String}

theorem receives_of_forall₂ {parts forms : List Formula}
    (each : List.Forall₂ (fun part form => List.Forall₂ (OuterUniversal.Receives constants)
      (part.outerUniversals scope) (form.outerUniversals [])) parts forms) :
    List.Forall₂ (OuterUniversal.Receives constants) (partsOuterUniversals scope parts)
      (partsOuterUniversals [] forms) := by
  induction each with
  | nil => exact .nil
  | cons own _ induction => exact List.rel_append own induction

/-- The outer universal quantifiers stay, in their order, and receive constants. -/
theorem IsNormal.receives_skolemizeWith {formula : Formula} (normal : formula.IsNormal)
    (covers : bindings.Covers constants scope)
    (within : (formula.skolemizeWith naming bindings introduced).2 ⊆ constants) :
    List.Forall₂ (OuterUniversal.Receives constants) (formula.outerUniversals scope)
      ((formula.skolemizeWith naming bindings introduced).1.outerUniversals []) := by
  induction normal generalizing bindings introduced scope with
  | literal literal =>
      rw [literal.skolemizeWith, literal.outerUniversals_eq_nil,
        (literal.substitute bindings).outerUniversals_eq_nil]
      exact .nil
  | and _ induction =>
      exact receives_of_forall₂
        (forall₂_skolemizeParts (fun part member _ => induction part member covers) within)
  | or _ induction =>
      exact receives_of_forall₂
        (forall₂_skolemizeParts (fun part member _ => induction part member covers) within)
  | forAll binders _ _ =>
      refine .cons ⟨rfl, rfl, bindings, covers.within, covers.keys, ?_⟩ .nil
      exact replacesFree_iff.mpr rfl
  | forSome binders _ induction =>
      obtain ⟨newWithin, laterWithin⟩ := List.append_subset.mp within
      exact induction (covers.introduce newWithin) laterWithin

end Formula

/-! ## Names of Skolemized forms -/

namespace Formula

variable {usable : String → Prop}

/-- The names of the form are those of the formula, what the bindings put in, and new constants. -/
theorem usable_of_mem_skolemizeWith {formula : Formula} (ground : bindings.Ground)
    (names : ∀ name ∈ formula.groundNameOccurrences bindings.keys, usable name)
    (targets : ∀ name ∈ bindings.targets, usable name)
    (constants : ∀ constant ∈ (formula.skolemizeWith naming bindings introduced).2,
      usable constant.name) :
    ∀ name ∈ (formula.skolemizeWith naming bindings introduced).1.groundNameOccurrences [],
      usable name := by
  have substituted {formula : Formula} {bindings : Bindings} (ground : bindings.Ground)
      (names : ∀ name ∈ formula.groundNameOccurrences bindings.keys, usable name)
      (targets : ∀ name ∈ bindings.targets, usable name) :
      ∀ name ∈ (formula.substitute bindings).groundNameOccurrences [], usable name := by
    intro name occurs
    rw [← Bindings.hide_nil bindings] at occurs
    have kept := mem_groundNameOccurrences_substitute ground occurs
    rw [List.append_nil] at kept
    exact kept.elim (names name) (targets name)
  have inForms {forms : List Formula}
      (each : ∀ form ∈ forms, ∀ name ∈ form.groundNameOccurrences [], usable name) :
      ∀ name ∈ partsGroundNameOccurrences [] forms, usable name := by
    intro name occurs
    rw [partsGroundNameOccurrences_eq_flatMap, List.mem_flatMap] at occurs
    obtain ⟨form, listed, inside⟩ := occurs
    exact each form listed name inside
  induction formula generalizing bindings introduced with
  | truth => exact substituted ground names targets
  | falsity => exact substituted ground names targets
  | atom predicate arguments => exact substituted ground names targets
  | equal left right => exact substituted ground names targets
  | not operand => exact substituted ground names targets
  | implies premise consequent => exact substituted ground names targets
  | forAll binders body => exact substituted ground names targets
  | and parts induction =>
      rw [groundNameOccurrences, partsGroundNameOccurrences_eq_flatMap] at names
      refine inForms (forall_mem_skolemizeParts (fun part member _ => ?_) constants)
      exact induction part member ground
        (fun name inside => names name (List.mem_flatMap.mpr ⟨part, member, inside⟩)) targets
  | or parts induction =>
      rw [groundNameOccurrences, partsGroundNameOccurrences_eq_flatMap] at names
      refine inForms (forall_mem_skolemizeParts (fun part member _ => ?_) constants)
      exact induction part member ground
        (fun name inside => names name (List.mem_flatMap.mpr ⟨part, member, inside⟩)) targets
  | forSome binders body induction =>
      obtain ⟨newUsable, laterUsable⟩ := List.forall_mem_append.mp constants
      have bindingsEq := naming.bindings_introduce introduced binders
      set newNames := (naming.introduce introduced binders).map SkolemConstant.name with newNamesDef
      have sameKeys := @Bindings.mem_keys_choiceBindings_append binders newNames
        (by simp [newNamesDef]) bindings
      refine induction ?_ ?_ ?_ laterUsable
      · rw [bindingsEq]
        exact (Bindings.Ground.choiceBindings _ _).append ground
      · rw [bindingsEq, groundNameOccurrences_congr body sameKeys]
        exact names
      · rw [bindingsEq, Bindings.targets_append]
        refine List.forall_mem_append.mpr ⟨fun name member => ?_, targets⟩
        have isNew := Bindings.targets_choiceBindings_subset _ _ member
        exact List.forall_mem_map.mpr newUsable name isNew

theorem partsPredicates_skolemizeParts {parts : List Formula}
    (each : ∀ part ∈ parts, ∀ introduced,
      (part.skolemizeWith naming bindings introduced).1.predicates = part.predicates) :
    partsPredicates (skolemizeParts naming bindings introduced parts).1 =
      partsPredicates parts := by
  have same : List.Forall₂ (fun part form => form.predicates = part.predicates) parts
      (skolemizeParts naming bindings introduced parts).1 :=
    forall₂_skolemizeParts (fun part member introduced _ => each part member introduced)
      fun _ _ => trivial
  rw [partsPredicates_eq_flatMap, partsPredicates_eq_flatMap]
  exact (flatMap_eq_flatMap_of_forall₂ same fun _ _ _ kept => kept.symm).symm

@[simp] theorem predicates_skolemizeWith (formula : Formula) (bindings : Bindings)
    (introduced : List SkolemConstant) :
    (formula.skolemizeWith naming bindings introduced).1.predicates = formula.predicates := by
  induction formula generalizing bindings introduced with
  | truth => rfl
  | falsity => rfl
  | atom predicate arguments => rfl
  | equal left right => rfl
  | not operand => exact predicates_substitute _ _
  | implies premise consequent => exact predicates_substitute _ _
  | forAll binders body => exact predicates_substitute _ _
  | and parts induction =>
      exact partsPredicates_skolemizeParts fun part member => induction part member bindings
  | or parts induction =>
      exact partsPredicates_skolemizeParts fun part member => induction part member bindings
  | forSome binders body induction => exact induction _ _

end Formula

/-! ## Exactness -/

/-- What holds of the Skolemization of a formula after the constants `introduced` before. -/
structure SkolemizesExactly (naming : SkolemNaming) (introduced : List SkolemConstant)
    (formula form : Formula) (constants : List SkolemConstant) : Prop where
  runs : ∀ other others, Skolemizes naming introduced formula other others ↔
    other = form ∧ others = constants
  created : constants = naming.introduce introduced formula.outerExistentials.flatten
  existentials : form.outerExistentials = []
  universals : List.Forall₂ (OuterUniversal.Receives constants) (formula.outerUniversals [])
    (form.outerUniversals [])
  truth : ∀ (model : Structure.{u}) (sortOf : String → String) (reading : model.Reading)
    (assignment : model.Assignment),
    Structure.Holds (Structure.sorted sortOf) reading assignment formula ↔
      ∃ other : model.Reading,
        Structure.AgreeOff (constants.map SkolemConstant.name) reading other ∧
        (∀ constant ∈ constants, (other constant.name).1 = sortOf constant.replaced) ∧
        Structure.Holds (Structure.sorted sortOf) other assignment form

theorem skolemizesExactly (naming : SkolemNaming) (introduced : List SkolemConstant)
    {formula : Formula} (normal : formula.IsNormal)
    (distinct : ((formula.skolemize naming introduced).2.map SkolemConstant.name).Nodup)
    (unused : ∀ constant ∈ (formula.skolemize naming introduced).2,
      constant.name ∉ formula.groundNames) :
    SkolemizesExactly.{u} naming introduced formula (formula.skolemize naming introduced).1
      (formula.skolemize naming introduced).2 where
  runs other others := by
    rw [skolemizes_iff, Prod.ext_iff, eq_comm, @eq_comm _ _ others]
  created := normal.snd_skolemizeWith
  existentials := normal.outerExistentials_skolemizeWith
  universals := normal.receives_skolemizeWith ⟨List.nil_subset _, fun _ => Iff.rfl⟩ (List.Subset.refl _)
  truth model sortOf reading assignment := by
    refine Structure.holds_iff_exists_skolemize (model.exists_sorted sortOf) ⟨distinct, ?_⟩
    intro constant member occurs
    exact unused constant member (Formula.mem_groundNames.mpr occurs)

/-- One variable is bound twice by existential quantifiers, another by a universal one inside. -/
def rebinding : Formula :=
  .forSome ["x", "y"] (.and [.atom "P" [.var "x", .var "y"], .forSome ["x"]
    (.or [.not (.equal (.var "x") (.constant "a")),
      .forAll ["y"] (.atom "R" [.var "x", .var "y"])])])

def namesInTurn (introduced : List SkolemConstant) (name : String) : String :=
  freshName ("sk_" ++ name) ("a" :: introduced.map SkolemConstant.name)

theorem isNormal_rebinding : rebinding.IsNormal := by
  refine .forSome _ (.and (List.forall_mem_cons.mpr ⟨.literal (.atom _ _), ?_⟩))
  refine List.forall_mem_singleton.mpr (.forSome _ (.or (List.forall_mem_cons.mpr ⟨?_, ?_⟩)))
  · exact .literal (.notEqual _ _)
  · exact List.forall_mem_singleton.mpr (.forAll _ (.literal (.atom _ _)))

theorem rebinding_skolemizesExactly : rebinding.IsNormal ∧
    rebinding.skolemize namesInTurn [] =
      (.and [.atom "P" [.constant "sk_x", .constant "sk_y"],
        .or [.not (.equal (.constant "sk_x_2") (.constant "a")),
          .forAll ["y"] (.atom "R" [.constant "sk_x_2", .var "y"])]],
        [⟨"sk_x", "x"⟩, ⟨"sk_y", "y"⟩, ⟨"sk_x_2", "x"⟩]) ∧
    SkolemizesExactly.{0} namesInTurn [] rebinding (rebinding.skolemize namesInTurn []).1
      (rebinding.skolemize namesInTurn []).2 :=
  ⟨isNormal_rebinding, by decide +kernel,
    skolemizesExactly namesInTurn [] isNormal_rebinding (by decide +kernel) (by decide +kernel)⟩

end Ergo
