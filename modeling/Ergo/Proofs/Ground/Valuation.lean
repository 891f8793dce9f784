import Ergo.Ground.Search
import Ergo.Proofs.Lists

/-!
Valuations of ground atoms that take equality for a congruence, and how the operations on sentences
act on truth and on atoms. The search for a model is correct for these valuations.
-/

namespace Ergo.Ground

/-- Equality is an equivalence, and equal names can stand for each other. -/
structure Congruent (valuation : Atom → Bool) : Prop where
  refl : ∀ name, valuation (.same name name) = true
  symm : ∀ {left right}, valuation (.same left right) = true → valuation (.same right left) = true
  trans : ∀ {left middle right}, valuation (.same left middle) = true →
    valuation (.same middle right) = true → valuation (.same left right) = true
  holds : ∀ predicate {arguments others},
    List.Forall₂ (fun argument other => valuation (.same argument other) = true)
      arguments others →
    valuation (.holds predicate arguments) = valuation (.holds predicate others)

namespace Congruent

variable {valuation : Atom → Bool}

theorem renameBy (congruent : Congruent valuation) {rename : String → String}
    (same : ∀ name, valuation (.same (rename name) name) = true) (atom : Atom) :
    valuation (Facts.renameBy rename atom) = valuation atom := by
  cases atom with
  | holds predicate arguments =>
      apply congruent.holds
      rw [List.forall₂_map_left_iff, List.forall₂_same]
      exact fun argument _ => same argument
  | same left right =>
      rw [Facts.renameBy, Bool.eq_iff_iff]
      constructor
      · intro equal
        exact congruent.trans (congruent.symm (same left)) (congruent.trans equal (same right))
      · intro equal
        exact congruent.trans (same left) (congruent.trans equal (congruent.symm (same right)))

end Congruent

/-! ## Truth of sentences -/

namespace Sentence

variable {valuation other : Atom → Bool}

@[simp] theorem eval_literal (sign : Bool) (atom : Atom) :
    eval valuation (.literal sign atom) = (valuation atom == sign) := by
  rw [eval]

@[simp] theorem eval_all (parts : List Sentence) :
    eval valuation (.all parts) = parts.all (eval valuation) := by
  rw [eval, evalAll_eq_all]

@[simp] theorem eval_any (parts : List Sentence) :
    eval valuation (.any parts) = parts.any (eval valuation) := by
  rw [eval, evalAny_eq_any]

@[simp] theorem eval_verum : eval valuation verum = true := by
  simp [verum]

@[simp] theorem eval_falsum : eval valuation falsum = false := by
  simp [falsum]

theorem eval_of_isVerum {sentence : Sentence} (isVerum : sentence.isVerum = true) :
    eval valuation sentence = true := by
  unfold Sentence.isVerum at isVerum
  split at isVerum
  · exact eval_verum
  · exact absurd isVerum Bool.false_ne_true

theorem eval_of_isFalsum {sentence : Sentence} (isFalsum : sentence.isFalsum = true) :
    eval valuation sentence = false := by
  unfold Sentence.isFalsum at isFalsum
  split at isFalsum
  · exact eval_falsum
  · exact absurd isFalsum Bool.false_ne_true

theorem eval_conjoin (parts : List Sentence) :
    eval valuation (conjoin parts) = parts.all (eval valuation) := by
  have kept : (parts.filter (!·.isVerum)).all (eval valuation) = parts.all (eval valuation) := by
    rw [List.all_filter]
    congr 1
    funext part
    cases isVerum : part.isVerum with
    | false => simp
    | true => simp [eval_of_isVerum isVerum]
  unfold conjoin
  split
  · next someFalsum =>
      obtain ⟨part, member, isFalsum⟩ := List.any_eq_true.mp someFalsum
      symm
      rw [eval_falsum, List.all_eq_false]
      exact ⟨part, member, by simp [eval_of_isFalsum isFalsum]⟩
  · rw [← kept]
    split
    · next part single => simp [single]
    · exact eval_all _

theorem eval_disjoin (parts : List Sentence) :
    eval valuation (disjoin parts) = parts.any (eval valuation) := by
  have kept : (parts.filter (!·.isFalsum)).any (eval valuation) = parts.any (eval valuation) := by
    rw [List.any_filter]
    congr 1
    funext part
    cases isFalsum : part.isFalsum with
    | false => simp
    | true => simp [eval_of_isFalsum isFalsum]
  unfold disjoin
  split
  · next someVerum =>
      obtain ⟨part, member, isVerum⟩ := List.any_eq_true.mp someVerum
      symm
      rw [eval_verum, List.any_eq_true]
      exact ⟨part, member, eval_of_isVerum isVerum⟩
  · rw [← kept]
    split
    · next part single => simp [single]
    · exact eval_any _

@[simp] theorem partsConjuncts_eq_flatMap (parts : List Sentence) :
    partsConjuncts parts = parts.flatMap conjuncts := by
  induction parts with
  | nil => simp [partsConjuncts]
  | cons part parts induction => simp [partsConjuncts, induction]

theorem all_eval_conjuncts (sentence : Sentence) :
    sentence.conjuncts.all (eval valuation) = eval valuation sentence := by
  induction sentence with
  | literal sign atom => simp [conjuncts]
  | any parts _ => simp [conjuncts]
  | all parts induction =>
      rw [conjuncts, partsConjuncts_eq_flatMap, List.all_flatMap, eval_all]
      rw [Bool.eq_iff_iff, List.all_eq_true, List.all_eq_true]
      exact forall₂_congr fun part member => by rw [induction part member]

theorem eval_congr {sentence : Sentence}
    (agree : ∀ atom ∈ sentence.atoms, valuation atom = other atom) :
    eval valuation sentence = eval other sentence := by
  induction sentence with
  | literal sign atom => simp [agree atom (by simp [atoms])]
  | all parts induction =>
      simp only [atoms, partsAtoms_eq_flatMap, List.mem_flatMap] at agree
      rw [eval_all, eval_all, Bool.eq_iff_iff, List.all_eq_true, List.all_eq_true]
      refine forall₂_congr fun part member => ?_
      rw [induction part member fun atom inside => agree atom ⟨part, member, inside⟩]
  | any parts induction =>
      simp only [atoms, partsAtoms_eq_flatMap, List.mem_flatMap] at agree
      rw [eval_any, eval_any, Bool.eq_iff_iff, List.any_eq_true, List.any_eq_true]
      refine exists_congr fun part => and_congr_right fun member => ?_
      rw [induction part member fun atom inside => agree atom ⟨part, member, inside⟩]

/-! ## Atoms of sentences -/

theorem flatMap_atoms_filter_subset (keep : Sentence → Bool) (parts : List Sentence) :
    (parts.filter keep).flatMap atoms ⊆ parts.flatMap atoms := by
  intro atom member
  obtain ⟨part, kept, inside⟩ := List.mem_flatMap.mp member
  exact List.mem_flatMap.mpr ⟨part, (List.mem_filter.mp kept).1, inside⟩

theorem atoms_conjoin_subset (parts : List Sentence) :
    (conjoin parts).atoms ⊆ parts.flatMap atoms := by
  unfold conjoin
  split
  · simp [falsum, atoms]
  · have kept := flatMap_atoms_filter_subset (!·.isVerum) parts
    split
    · next part single => simpa [single] using kept
    · simpa [atoms] using kept

theorem atoms_disjoin_subset (parts : List Sentence) :
    (disjoin parts).atoms ⊆ parts.flatMap atoms := by
  unfold disjoin
  split
  · simp [verum, atoms]
  · have kept := flatMap_atoms_filter_subset (!·.isFalsum) parts
    split
    · next part single => simpa [single] using kept
    · simpa [atoms] using kept

theorem flatMap_atoms_conjuncts (sentence : Sentence) :
    sentence.conjuncts.flatMap atoms = sentence.atoms := by
  induction sentence with
  | literal sign atom => simp [conjuncts]
  | any parts _ => simp [conjuncts]
  | all parts induction =>
      rw [conjuncts, partsConjuncts_eq_flatMap, atoms, partsAtoms_eq_flatMap, List.flatMap_assoc]
      exact List.flatMap_congr induction

end Sentence

end Ergo.Ground
