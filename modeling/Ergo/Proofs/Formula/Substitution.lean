import Ergo.Formula.Expansion
import Ergo.Proofs.Formula.Structure

/-!
Substitution of constants. Main statements: constants are put in one after the other as they are put
in at once (`substitute_substitute`), and a formula with constants put in for variables says of what the
constants stand for what the formula says (`holds_substitute`).
-/

namespace Ergo

universe u

/-! ## Bindings to constants -/

namespace Bindings

/-- All terms of the bindings are constants. -/
def Ground (bindings : Bindings) : Prop :=
  ∀ binding ∈ bindings, ∃ name, binding.2 = .constant name

def keys (bindings : Bindings) : List String :=
  bindings.map Prod.fst

def targets (bindings : Bindings) : List String :=
  bindings.map fun binding => binding.2.name

theorem Ground.nil : Ground [] := by
  simp [Ground]

theorem Ground.append {first second : Bindings} (firstGround : first.Ground)
    (secondGround : second.Ground) : Ground (first ++ second) := by
  intro binding member
  rcases List.mem_append.mp member with inFirst | inSecond
  · exact firstGround binding inFirst
  · exact secondGround binding inSecond

theorem Ground.hide {bindings : Bindings} (ground : bindings.Ground) (binders : List String) :
    (bindings.hide binders).Ground :=
  fun binding member => ground binding (List.mem_filter.mp member).1

theorem Ground.lookup {bindings : Bindings} (ground : bindings.Ground) {name : String}
    {term : Term} (found : bindings.lookup name = some term) :
    ∃ target ∈ bindings.targets, term = .constant target := by
  have member := mem_of_lookup_eq_some found
  obtain ⟨target, rfl⟩ := ground (name, term) member
  exact ⟨target, List.mem_map_of_mem member, rfl⟩

@[simp] theorem targets_append (first second : Bindings) :
    targets (first ++ second) = first.targets ++ second.targets := by
  simp [targets]

@[simp] theorem keys_append (first second : Bindings) :
    keys (first ++ second) = first.keys ++ second.keys := by
  simp [keys]

theorem lookup_eq_none_iff_not_mem_keys {bindings : Bindings} {name : String} :
    bindings.lookup name = none ↔ name ∉ bindings.keys := by
  simp only [List.lookup_eq_none_iff, keys, List.mem_map, not_exists, not_and, bne_iff_ne]
  exact ⟨fun apart binding member same => apart binding member same.symm,
    fun apart binding member same => apart binding member same.symm⟩

theorem lookup_hide (bindings : Bindings) (binders : List String) (name : String) :
    (bindings.hide binders).lookup name =
      if name ∈ binders then none else bindings.lookup name := by
  induction bindings with
  | nil => simp [hide]
  | cons binding bindings induction =>
      obtain ⟨key, term⟩ := binding
      by_cases hidden : key ∈ binders
      · have dropped : hide ((key, term) :: bindings) binders =
            Bindings.hide bindings binders := by
          simp [hide, hidden]
        rw [dropped, induction]
        by_cases same : name = key
        · simp [same, hidden]
        · simp [List.lookup_cons, beq_false_of_ne same]
      · have kept : hide ((key, term) :: bindings) binders =
            (key, term) :: Bindings.hide bindings binders := by
          simp [hide, hidden]
        rw [kept, List.lookup_cons, List.lookup_cons, induction]
        by_cases same : name = key
        · simp [same, hidden]
        · simp [beq_false_of_ne same]

theorem mem_keys_hide {bindings : Bindings} {binders : List String} {name : String} :
    name ∈ (bindings.hide binders).keys ↔ name ∈ bindings.keys ∧ name ∉ binders := by
  rw [← not_iff_not, ← lookup_eq_none_iff_not_mem_keys, lookup_hide, not_and_or, not_not,
    ← lookup_eq_none_iff_not_mem_keys]
  by_cases hidden : name ∈ binders <;> simp [hidden]

theorem Ground.choiceBindings (binders names : List String) :
    Ground (choiceBindings binders names) := by
  intro binding member
  simp only [Ergo.choiceBindings, ofPairs, List.mem_reverse] at member
  obtain ⟨name, _, same⟩ := List.mem_map.mp (List.of_mem_zip member).2
  exact ⟨name, same.symm⟩

theorem mem_keys_choiceBindings {binders names : List String}
    (lengths : binders.length = names.length) {name : String} :
    name ∈ keys (choiceBindings binders names) ↔ name ∈ binders := by
  have zipped : (binders.zip (names.map Term.constant)).map Prod.fst = binders :=
    List.map_fst_zip (by simp [lengths])
  simp only [keys, Ergo.choiceBindings, ofPairs, List.map_reverse, zipped, List.mem_reverse]

theorem mem_keys_choiceBindings_append {binders names : List String}
    (lengths : binders.length = names.length) (bindings : Bindings) (name : String) :
    name ∈ keys (choiceBindings binders names ++ bindings) ↔ name ∈ bindings.keys ++ binders := by
  rw [keys_append, List.mem_append, List.mem_append, mem_keys_choiceBindings lengths, or_comm]

theorem targets_choiceBindings_subset (binders names : List String) :
    targets (choiceBindings binders names) ⊆ names := by
  intro name member
  simp only [targets, Ergo.choiceBindings, ofPairs, List.map_reverse, List.mem_reverse,
    List.mem_map] at member
  obtain ⟨⟨binder, term⟩, inZip, rfl⟩ := member
  obtain ⟨target, inNames, rfl⟩ := List.mem_map.mp (List.of_mem_zip inZip).2
  exact inNames

/-! ## Values -/

/-- The assignment of what the terms of bindings denote. -/
def values {model : Structure.{u}} (bindings : Bindings) (reading : model.Reading) :
    model.Assignment :=
  fun name => (bindings.lookup name).map (Structure.value reading Structure.Assignment.unbound)

variable {model : Structure.{u}} {reading : model.Reading}

theorem values_congr {bindings : Bindings} (ground : bindings.Ground) {other : model.Reading}
    (agree : ∀ name ∈ bindings.targets, reading name = other name) :
    bindings.values reading = bindings.values other := by
  funext name
  simp only [values]
  cases found : bindings.lookup name with
  | none => rfl
  | some term =>
      obtain ⟨target, member, rfl⟩ := ground.lookup found
      exact congrArg some (agree target member)

theorem values_isSome {bindings : Bindings} {name : String} :
    (bindings.values reading name).isSome ↔ name ∈ bindings.keys := by
  rw [values, Option.isSome_map, ← not_iff_not, ← lookup_eq_none_iff_not_mem_keys]
  simp only [Bool.not_eq_true, Option.isSome_eq_false_iff, Option.isNone_iff_eq_none]

theorem values_choiceBindings_append (binders names : List String) (bindings : Bindings) :
    (choiceBindings binders names ++ bindings).values reading =
      (bindings.values reading).bind binders (names.map reading) := by
  funext name
  have pairs : ((binders.zip (names.map Term.constant)).reverse.lookup name).map
        (Structure.value reading Structure.Assignment.unbound) =
      (binders.zip (names.map reading)).reverse.lookup name := by
    rw [← lookup_map_values, List.map_reverse, List.zip_map_right, List.zip_map_right,
      List.map_map]
    rfl
  simp only [values, Structure.Assignment.bind, Ergo.choiceBindings, ofPairs, List.lookup_append,
    Option.map_or, pairs]

end Bindings

/-! ## Substitution one after the other -/

/-- The bindings have the effect of the first ones with the second ones put in after them. -/
def Bindings.Follows (final first second : Bindings) : Prop :=
  ∀ name, final.lookup name = (first.lookup name).or (second.lookup name)

theorem Bindings.Follows.hide {final first second : Bindings} (follows : final.Follows first second)
    (binders : List String) :
    (final.hide binders).Follows (first.hide binders) (second.hide binders) := by
  intro name
  simp only [lookup_hide, follows name]
  split
  · rfl
  · rfl

/-- An instance of a body under bindings binds the variables of the quantifier anew. -/
theorem Bindings.follows_choiceBindings (bindings : Bindings) {binders names : List String}
    (lengths : binders.length = names.length) :
    (choiceBindings binders names ++ bindings).Follows (bindings.hide binders)
      (choiceBindings binders names) := by
  have bound (name : String) : (choiceBindings binders names).lookup name = none ↔ name ∉ binders := by
    rw [lookup_eq_none_iff_not_mem_keys, mem_keys_choiceBindings lengths]
  intro name
  rw [List.lookup_append, lookup_hide]
  by_cases inside : name ∈ binders
  · obtain ⟨term, found⟩ := Option.ne_none_iff_exists'.mp (mt (bound name).mp (not_not.mpr inside))
    rw [if_pos inside, found]
    rfl
  · rw [if_neg inside, (bound name).mpr inside, Option.none_or, Option.or_none]

theorem Term.substitute_substitute {final first second : Bindings}
    (follows : final.Follows first second) (ground : first.Ground) (term : Term) :
    (term.substitute first).substitute second = term.substitute final := by
  cases term with
  | constant name => rfl
  | var name =>
      simp only [Term.substitute, follows name]
      cases found : first.lookup name with
      | none => rfl
      | some put =>
          obtain ⟨target, _, rfl⟩ := ground.lookup found
          rfl

namespace Formula

theorem map_eq_self {parts : List Formula} {map : Formula → Formula}
    (each : ∀ part ∈ parts, map part = part) : parts.map map = parts :=
  (List.map_congr_left each).trans (List.map_id parts)

theorem substitute_nil (formula : Formula) : formula.substitute [] = formula := by
  have sameTerm (term : Term) : term.substitute [] = term := by cases term <;> rfl
  induction formula with
  | truth => rfl
  | falsity => rfl
  | atom predicate arguments => rw [substitute, funext sameTerm, List.map_id']
  | equal left right => rw [substitute, sameTerm, sameTerm]
  | not operand induction => rw [substitute, induction]
  | and parts induction => rw [substitute, substituteParts_eq_map, map_eq_self induction]
  | or parts induction => rw [substitute, substituteParts_eq_map, map_eq_self induction]
  | implies premise consequent premiseInduction consequentInduction =>
      rw [substitute, premiseInduction, consequentInduction]
  | forAll binders body induction => exact congrArg (Formula.forAll binders) induction
  | forSome binders body induction => exact congrArg (Formula.forSome binders) induction

theorem substitute_substitute {final first second : Bindings} (follows : final.Follows first second)
    (ground : first.Ground) (formula : Formula) :
    (formula.substitute first).substitute second = formula.substitute final := by
  induction formula generalizing final first second with
  | truth => rfl
  | falsity => rfl
  | atom predicate arguments =>
      simp only [substitute, List.map_map, Function.comp_def,
        Term.substitute_substitute follows ground]
  | equal left right => simp only [substitute, Term.substitute_substitute follows ground]
  | not operand induction => simp only [substitute, induction follows ground]
  | and parts induction =>
      simp only [substitute, substituteParts_eq_map, List.map_map]
      exact congrArg and
        (List.map_congr_left fun part member => induction part member follows ground)
  | or parts induction =>
      simp only [substitute, substituteParts_eq_map, List.map_map]
      exact congrArg or
        (List.map_congr_left fun part member => induction part member follows ground)
  | implies premise consequent premiseInduction consequentInduction =>
      simp only [substitute, premiseInduction follows ground, consequentInduction follows ground]
  | forAll binders body induction =>
      simp only [substitute, induction (follows.hide binders) (ground.hide binders)]
  | forSome binders body induction =>
      simp only [substitute, induction (follows.hide binders) (ground.hide binders)]

theorem substitute_hide_choiceBindings {bindings : Bindings} (ground : bindings.Ground)
    {binders names : List String} (lengths : binders.length = names.length) (body : Formula) :
    (body.substitute (bindings.hide binders)).substitute (choiceBindings binders names) =
      body.substitute (choiceBindings binders names ++ bindings) :=
  substitute_substitute (Bindings.follows_choiceBindings bindings lengths) (ground.hide binders) body

end Formula

/-! ## Truth -/

namespace Structure

variable {model : Structure.{u}} {range : model.Range} {reading : model.Reading}
  {assignment : model.Assignment}

/-- An assignment with the variables of bindings taken from these. -/
def Assignment.under (assignment : model.Assignment) (bindings : Bindings)
    (reading : model.Reading) : model.Assignment :=
  fun name => (bindings.values reading name).or (assignment name)

@[simp] theorem Assignment.under_nil (assignment : model.Assignment) (reading : model.Reading) :
    assignment.under [] reading = assignment := rfl

theorem Assignment.under_unbound (bindings : Bindings) (reading : model.Reading) :
    Assignment.unbound.under bindings reading = bindings.values reading := by
  funext name
  simp [under, unbound]

theorem Assignment.under_isSome {bindings : Bindings} {name : String}
    (isKey : name ∈ bindings.keys) : (assignment.under bindings reading name).isSome := by
  rw [under, Option.isSome_or, Bindings.values_isSome.mpr isKey, Bool.true_or]

theorem Assignment.under_choiceBindings (binders names : List String)
    (bindings : Bindings) :
    assignment.under (choiceBindings binders names ++ bindings) reading =
      (assignment.under bindings reading).bind binders (names.map reading) := by
  funext name
  simp only [under, Bindings.values_choiceBindings_append, bind, Option.or_assoc]

theorem value_substitute {bindings : Bindings} (ground : bindings.Ground) (term : Term) :
    value reading assignment (term.substitute bindings) =
      value reading (assignment.under bindings reading) term := by
  cases term with
  | constant name => rfl
  | var name =>
      simp only [Term.substitute, value, Assignment.under, Bindings.values]
      cases found : bindings.lookup name with
      | none => rfl
      | some put =>
          obtain ⟨target, _, rfl⟩ := ground.lookup found
          rfl

theorem Assignment.under_hide_bind (bindings : Bindings) {binders : List String}
    {elements : List model.Element} (ranges : List.Forall₂ range binders elements) :
    (assignment.bind binders elements).under (bindings.hide binders) reading =
      (assignment.under bindings reading).bind binders elements := by
  funext name
  have bound := Assignment.bind_isSome Assignment.unbound ranges name
  simp only [Assignment.bind, Assignment.unbound, Option.or_none, Option.isSome_none,
    Bool.false_eq_true, false_or] at bound
  simp only [Assignment.under, Assignment.bind, Bindings.values, Bindings.lookup_hide]
  by_cases inside : name ∈ binders
  · obtain ⟨element, found⟩ := Option.isSome_iff_exists.mp (bound.mpr inside)
    simp [inside, found]
  · have missing : (binders.zip elements).reverse.lookup name = none := by
      rw [← Option.not_isSome_iff_eq_none, bound]
      exact inside
    simp [inside, missing]

theorem holds_substitute {bindings : Bindings} (ground : bindings.Ground) (formula : Formula) :
    Holds range reading assignment (formula.substitute bindings) ↔
      Holds range reading (assignment.under bindings reading) formula := by
  induction formula generalizing assignment bindings with
  | truth => rfl
  | falsity => rfl
  | atom predicate arguments =>
      have values : ∀ term, value reading assignment (Term.substitute bindings term) =
          value reading (assignment.under bindings reading) term := value_substitute ground
      simp only [Formula.substitute, Holds, List.map_map, Function.comp_def, values]
  | equal left right => simp only [Formula.substitute, Holds, value_substitute ground]
  | not operand induction => simp only [Formula.substitute, Holds, induction ground]
  | and parts induction =>
      simp only [Formula.substitute, Formula.substituteParts_eq_map, Holds, allHold_iff,
        List.forall_mem_map]
      exact forall₂_congr fun part member => induction part member ground
  | or parts induction =>
      simp only [Formula.substitute, Formula.substituteParts_eq_map, Holds, anyHolds_iff,
        List.mem_map, exists_exists_and_eq_and]
      exact exists_congr fun part => and_congr_right fun member => induction part member ground
  | implies premise consequent premiseInduction consequentInduction =>
      simp only [Formula.substitute, Holds, premiseInduction ground, consequentInduction ground]
  | forAll binders body induction =>
      simp only [Formula.substitute, Holds]
      refine forall₂_congr fun elements ranges => ?_
      rw [induction (ground.hide binders), Assignment.under_hide_bind bindings ranges]
  | forSome binders body induction =>
      simp only [Formula.substitute, Holds]
      refine exists_congr fun elements => and_congr_right fun ranges => ?_
      rw [induction (ground.hide binders), Assignment.under_hide_bind bindings ranges]

end Structure

end Ergo
