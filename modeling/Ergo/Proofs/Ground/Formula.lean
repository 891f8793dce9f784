import Ergo.Proofs.Formula.WellSorted
import Ergo.Proofs.Ground.Solver

/-!
The valuation of ground atoms in a structure. A structure in which formulas are true fulfills them
for a solver (`fulfills_valuation`), and of formulas without quantifiers nothing is lost that way
(`eval_ofFormula_iff`).
-/

namespace Ergo

universe u

open Ground

namespace Structure

variable {model : Structure.{u}} {range : model.Range} {reading : model.Reading}

noncomputable def valuation (reading : model.Reading) : Atom → Bool
  | .holds predicate arguments =>
      @decide (model.relation predicate (arguments.map reading)) (Classical.propDecidable _)
  | .same left right => @decide (reading left = reading right) (Classical.propDecidable _)

theorem valuation_holds {predicate : String} {arguments : List String} :
    valuation reading (.holds predicate arguments) = true ↔
      model.relation predicate (arguments.map reading) := by
  simp only [valuation, decide_eq_true_eq]

theorem valuation_same {left right : String} :
    valuation reading (.same left right) = true ↔ reading left = reading right := by
  simp only [valuation, decide_eq_true_eq]

theorem congruent_valuation (reading : model.Reading) : Congruent (valuation reading) where
  refl _ := valuation_same.mpr rfl
  symm equal := valuation_same.mpr (valuation_same.mp equal).symm
  trans first second :=
    valuation_same.mpr ((valuation_same.mp first).trans (valuation_same.mp second))
  holds predicate arguments others equal := by
    have values : arguments.map reading = others.map reading := by
      induction equal with
      | nil => rfl
      | cons headEqual _ induction =>
          rw [List.map_cons, List.map_cons, valuation_same.mp headEqual, induction]
    rw [Bool.eq_iff_iff, valuation_holds, valuation_holds, values]

@[simp] theorem value_unbound (term : Term) :
    value reading Assignment.unbound term = reading term.name := by
  cases term with
  | constant name => rfl
  | var name => rfl

theorem holds_atom_iff {predicate : String} {arguments : List Term} :
    Holds range reading Assignment.unbound (.atom predicate arguments) ↔
      valuation reading (.holds predicate (arguments.map Term.name)) = true := by
  have values : arguments.map (value reading Assignment.unbound) =
      (arguments.map Term.name).map reading := by
    rw [List.map_map]
    exact List.map_congr_left fun term _ => value_unbound term
  rw [valuation_holds, Holds, values]

theorem holds_equal_iff {left right : Term} :
    Holds range reading Assignment.unbound (.equal left right) ↔
      valuation reading (.same left.name right.name) = true := by
  rw [valuation_same, Holds, value_unbound, value_unbound]

open Classical in
/-- What a structure says of a formula, its valuation says, if the quantified parts mean what they
mean there. -/
theorem holds_iff_eval (formula : Formula) :
    Holds range reading Assignment.unbound formula ↔
      formula.eval (valuation reading)
        (fun part => decide (Holds range reading Assignment.unbound part)) = true := by
  induction formula with
  | truth => simp [Holds, Formula.eval]
  | falsity => simp [Holds, Formula.eval]
  | atom predicate arguments => rw [holds_atom_iff, Formula.eval]
  | equal left right => rw [holds_equal_iff, Formula.eval]
  | not operand induction =>
      rw [Holds, Formula.eval, Bool.not_eq_true', ← Bool.not_eq_true]
      exact not_congr induction
  | and parts induction =>
      rw [Holds, allHold_iff, Formula.eval, Formula.evalAll_eq_all, List.all_eq_true]
      exact forall₂_congr induction
  | or parts induction =>
      rw [Holds, anyHolds_iff, Formula.eval, Formula.evalAny_eq_any, List.any_eq_true]
      exact exists_congr fun part => and_congr_right fun member => induction part member
  | implies premise consequent premiseInduction consequentInduction =>
      rw [Holds, Formula.eval, Bool.or_eq_true, Bool.not_eq_true', ← Bool.not_eq_true,
        ← premiseInduction, ← consequentInduction, imp_iff_not_or]
  | forAll binders body _ => rw [Formula.eval, decide_eq_true_eq]
  | forSome binders body _ => rw [Formula.eval, decide_eq_true_eq]

theorem fulfills_valuation {formulas : List Formula}
    (holds : ∀ formula ∈ formulas, Holds range reading Assignment.unbound formula) :
    Fulfills (valuation reading) formulas :=
  ⟨congruent_valuation reading, _, fun formula member =>
    (holds_iff_eval formula).mp (holds formula member)⟩

theorem eval_ofFormula_iff {formula : Formula} (quantifierFree : formula.isQuantifierFree = true) :
    (ofFormula true formula).eval (valuation reading) = true ↔
      Holds range reading Assignment.unbound formula :=
  (Formula.eval_ofFormula_iff quantifierFree).trans (holds_iff_eval formula).symm

end Structure

theorem Formula.IsGround.isQuantifierFree {formula : Formula} (ground : formula.IsGround) :
    formula.isQuantifierFree = true := by
  induction ground with
  | literal literal => cases literal <;> rfl
  | and _ induction =>
      rw [Formula.isQuantifierFree, partsQuantifierFree_eq_all]
      exact List.all_eq_true.mpr induction
  | or _ induction =>
      rw [Formula.isQuantifierFree, partsQuantifierFree_eq_all]
      exact List.all_eq_true.mpr induction

/-! ## Sorts of atoms -/

/-- A predicate holds of names of the sorts of its domain, and equalities are between names of one
sort. -/
def Ground.Atom.WellSorted (sorting : Sorting) : Atom → Prop
  | .holds predicate arguments =>
      ∃ domain, sorting.domain? predicate = some domain ∧
        List.Forall₂ (fun argument sortName => sorting.sort? argument = some sortName)
          arguments domain
  | .same left right =>
      ∃ sortName, sorting.sort? left = some sortName ∧ sorting.sort? right = some sortName

theorem sort?_name {sorting : Sorting} (term : Term) :
    sorting.sort? term.name = sorting.termSort? [] term := by
  cases term with
  | constant name => rfl
  | var name => simp [Sorting.termSort?, Term.name]

theorem mem_partsAtoms_ofParts {sign : Bool} {parts : List Formula} {atom : Atom} :
    atom ∈ Sentence.partsAtoms (ofParts sign parts) ↔
      ∃ part ∈ parts, atom ∈ (ofFormula sign part).atoms := by
  rw [Sentence.partsAtoms_eq_flatMap, ofParts_eq_map, List.flatMap_map, List.mem_flatMap]

theorem Formula.WellSorted.atoms {sorting : Sorting} {formula : Formula}
    (wellSorted : formula.WellSorted sorting []) (sign : Bool) :
    ∀ atom ∈ (ofFormula sign formula).atoms, atom.WellSorted sorting := by
  induction formula generalizing sign with
  | truth => cases sign <;> simp [ofFormula, Sentence.verum, Sentence.falsum, Sentence.atoms]
  | falsity => cases sign <;> simp [ofFormula, Sentence.verum, Sentence.falsum, Sentence.atoms]
  | atom predicate arguments =>
      cases wellSorted with
      | atom isApplied sorts =>
          intro atom member
          rw [ofFormula, Sentence.atoms, List.mem_singleton] at member
          rw [member]
          refine ⟨_, isApplied, ?_⟩
          rw [List.forall₂_map_left_iff]
          exact sorts.imp fun argument _ isSorted => (sort?_name argument).trans isSorted
  | equal left right =>
      cases wellSorted with
      | equal sortName leftSort rightSort =>
          intro atom member
          rw [ofFormula, Sentence.atoms, List.mem_singleton] at member
          rw [member]
          refine ⟨sortName, ?_, ?_⟩
          · rw [sort?_name, leftSort]
          · rw [sort?_name, rightSort]
  | not operand induction =>
      cases wellSorted with
      | not operandSorted => exact induction operandSorted (!sign)
  | and parts induction =>
      cases wellSorted with
      | and each =>
          intro atom member
          have inParts : atom ∈ Sentence.partsAtoms (ofParts sign parts) := by
            cases sign <;> exact member
          obtain ⟨part, inside, occurs⟩ := mem_partsAtoms_ofParts.mp inParts
          exact induction part inside (each part inside) sign atom occurs
  | or parts induction =>
      cases wellSorted with
      | or each =>
          intro atom member
          have inParts : atom ∈ Sentence.partsAtoms (ofParts sign parts) := by
            cases sign <;> exact member
          obtain ⟨part, inside, occurs⟩ := mem_partsAtoms_ofParts.mp inParts
          exact induction part inside (each part inside) sign atom occurs
  | implies premise consequent premiseInduction consequentInduction =>
      cases wellSorted with
      | implies premiseSorted consequentSorted =>
          have premiseAtoms := premiseInduction premiseSorted (!sign)
          have consequentAtoms := consequentInduction consequentSorted sign
          intro atom member
          have inEither : atom ∈ (ofFormula (!sign) premise).atoms ∨
              atom ∈ (ofFormula sign consequent).atoms := by
            cases sign <;> simpa [ofFormula, Sentence.atoms] using member
          rcases inEither with inPremise | inConsequent
          · exact premiseAtoms atom inPremise
          · exact consequentAtoms atom inConsequent
  | forAll binders body _ => simp [ofFormula, Sentence.verum, Sentence.atoms]
  | forSome binders body _ => simp [ofFormula, Sentence.verum, Sentence.atoms]

end Ergo
