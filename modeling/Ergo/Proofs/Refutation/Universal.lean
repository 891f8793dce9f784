import Ergo.Proofs.Formula.Instances
import Ergo.Proofs.Refutation.Countermodel

/-!
Refutations from universal formulas. Goals with no existential quantifier are not changed by
Skolemization, and a goal with few universal variables expands over the few names of a theory
(`IsUniversal.isSome_expand`). So a conclusion that follows from such assertions is proven
(`Program.prove_of_entails`).
-/

namespace Ergo

/-! ## Formulas without existential quantifiers -/

namespace Formula

variable {formula body : Formula} {parts : List Formula} {binders : List String} {width : Nat}

/-- No quantifier, or one universal quantifier of at most `width` variables in front of the rest. -/
inductive IsUniversal (width : Nat) : Formula → Prop
  | ground {formula : Formula} : IsGround formula → IsUniversal width formula
  | forAll {binders : List String} {body : Formula} :
      binders.length ≤ width → IsGround body → IsUniversal width (.forAll binders body)

section Skolem

variable {naming : SkolemNaming} {introduced : List SkolemConstant}

theorem skolemizeParts_eq_self
    (each : ∀ part ∈ parts, ∀ introduced, part.skolemizeWith naming [] introduced = (part, [])) :
    skolemizeParts naming [] introduced parts = (parts, []) := by
  induction parts generalizing introduced with
  | nil => rfl
  | cons part parts induction =>
      obtain ⟨own, later⟩ := List.forall_mem_cons.mp each
      simp only [skolemizeParts, own, induction later, List.append_nil]

theorem IsGround.skolemizeWith_eq_self (ground : formula.IsGround) :
    formula.skolemizeWith naming [] introduced = (formula, []) := by
  induction ground generalizing introduced with
  | literal literal => cases literal <;> simp [skolemizeWith, substitute_nil]
  | and _ induction =>
      rw [skolemizeWith, skolemizeParts_eq_self fun part member _ => induction part member]
  | or _ induction =>
      rw [skolemizeWith, skolemizeParts_eq_self fun part member _ => induction part member]

theorem IsUniversal.skolemizeWith_eq_self (universal : formula.IsUniversal width) :
    formula.skolemizeWith naming [] introduced = (formula, []) := by
  cases universal with
  | ground ground => exact ground.skolemizeWith_eq_self
  | forAll _ _ => simp [skolemizeWith, substitute_nil]

end Skolem

/-! ## Expansion -/

section Expansion

variable {domains : Domains} {sortOf : String → String} {part : Formula}

theorem Reaches.isGround (reached : formula.Reaches domains sortOf part) (ground : formula.IsGround) :
    part.IsGround := by
  induction reached with
  | self => exact ground
  | and member _ induction =>
      cases ground with
      | literal literal => cases literal
      | and each => exact induction (each _ member)
  | or member _ induction =>
      cases ground with
      | literal literal => cases literal
      | or each => exact induction (each _ member)
  | not _ induction =>
      cases ground with
      | literal literal =>
          cases literal with
          | notAtom predicate arguments => exact induction (.literal (.atom predicate arguments))
          | notEqual left right => exact induction (.literal (.equal left right))
  | premise _ _ => cases ground with | literal literal => cases literal
  | consequent _ _ => cases ground with | literal literal => cases literal
  | forAll _ _ _ => cases ground with | literal literal => cases literal

theorem IsGround.isUnblocked (ground : formula.IsGround) : formula.IsUnblocked domains sortOf := by
  intro part reached blocks
  cases reached.isGround ground with
  | literal literal => cases literal <;> exact blocks
  | and _ => exact blocks
  | or _ => exact blocks

theorem IsGround.instanceCount_eq_zero (ground : formula.IsGround) :
    formula.instanceCount domains sortOf = 0 := by
  induction ground with
  | literal literal => cases literal <;> rfl
  | and _ induction =>
      rw [instanceCount, partsInstanceCount_eq_sum]
      exact List.sum_eq_zero (List.forall_mem_map.mpr induction)
  | or _ induction =>
      rw [instanceCount, partsInstanceCount_eq_sum]
      exact List.sum_eq_zero (List.forall_mem_map.mpr induction)

theorem IsUniversal.isSome_expand (universal : formula.IsUniversal width) {bound limit : Nat}
    (positive : 0 < bound) (short : ∀ sortName, (domains.domain sortName).length ≤ bound)
    (enough : bound ^ width ≤ limit) (small : limit < countLimit) :
    (formula.expand domains sortOf limit).isSome = true := by
  rw [Option.isSome_iff_exists]
  cases universal with
  | ground ground =>
      refine ⟨_, expand_eq_some_iff.mpr ⟨ground.isUnblocked, ?_, rfl⟩⟩
      rw [ground.instanceCount_eq_zero]
      exact Nat.zero_le limit
  | @forAll binders body narrow ground =>
      have shortRanges : ∀ range ∈ rangesOf domains sortOf binders, range.length ≤ bound :=
        List.forall_mem_map.mpr fun _ _ => short _
      have within : bound ^ (rangesOf domains sortOf binders).length ≤ limit := by
        rw [rangesOf, List.length_map]
        exact Nat.le_trans (Nat.pow_le_pow_right positive narrow) enough
      refine ⟨_, expand_eq_some_iff.mpr ⟨?_, ?_, rfl⟩⟩
      · intro part reached blocks
        cases reached with
        | self =>
            exact not_overflows_of_le_pow positive shortRanges (Nat.lt_of_le_of_lt within small) blocks
        | forAll _ reached => exact ground.isUnblocked part reached blocks
      · rw [instanceCount, ground.instanceCount_eq_zero, Nat.mul_zero, Nat.add_zero]
        exact Nat.le_trans (sizeProduct_le_pow shortRanges) within

end Expansion

end Formula

/-! ## Universal goals -/

namespace Refutation

variable {theory : Theory} {conclusion : Formula} {width limit : Nat}

theorem skolemizeAll_eq_self (universal : ∀ formula ∈ formulasOf theory conclusion,
    formula.IsUniversal width) :
    Formula.skolemizeAll (skolemName theory) (formulasOf theory conclusion) =
      (formulasOf theory conclusion, []) :=
  Formula.skolemizeParts_eq_self fun formula member _ => (universal formula member).skolemizeWith_eq_self

/-- Universal goals expand if a choice of names for all variables of a goal can be made in no more
ways than there may be instances. -/
theorem expands_of_isUniversal (distinct : theory.Distinct)
    (universal : ∀ formula ∈ formulasOf theory conclusion, formula.IsUniversal width)
    (enough : max 1 theory.symbols.length ^ width ≤ limit) (small : limit < countLimit) :
    (Refutation.of theory conclusion).Expands limit := by
  have unchanged := skolemizeAll_eq_self universal
  have goals : (Refutation.of theory conclusion).goals = formulasOf theory conclusion :=
    congrArg Prod.fst unchanged
  have domains : (Refutation.of theory conclusion).domains =
      domainsOf theory [] (formulasOf theory conclusion) :=
    congrArg (fun skolemized : List Formula × List SkolemConstant =>
      domainsOf theory skolemized.2 skolemized.1) unchanged
  intro goal member
  rw [goals] at member
  refine (universal goal member).isSome_expand (Nat.le_max_left 1 _) (fun sortName => ?_) enough small
  rw [domains]
  exact length_domain_domainsOf_le distinct sortName

end Refutation

namespace Program

variable {program : Program} {theory : Theory} {solver : Ground.Solver} {width limit : Nat}

/-- A conclusion that follows from universal assertions over few symbols is proven by a solver that
decides ground formulas. -/
theorem prove_of_entails (decides : solver.DecidesGround) (declaresFirst : program.DeclaresFirst)
    (executed : Theory.empty.executeAll program.statements = .ok theory)
    (checked : theory.check program.conclusion = .ok ())
    (universal : ∀ formula ∈ program.assertions ++ [.not program.conclusion],
      formula.negationNormal.IsUniversal width)
    (enough : max 1 program.declarations.length ^ width ≤ limit) (small : limit < countLimit)
    (entails : theory.Entails.{0} program.conclusion) :
    program.prove solver limit = .ok .proven := by
  have accepted := declaresFirst.accepted executed checked
  have fewSymbols : theory.symbols.length ≤ program.declarations.length := by
    have bounded := Theory.length_symbols_executeAll_le executed
    rwa [Theory.empty, List.length_nil, Nat.zero_add] at bounded
  have universalGoals : ∀ formula ∈ Refutation.formulasOf theory program.conclusion,
      formula.IsUniversal width := by
    rw [Refutation.formulasOf, theory_assertions executed, List.forall_mem_map]
    exact universal
  have fewChoices : max 1 theory.symbols.length ^ width ≤ max 1 program.declarations.length ^ width :=
    Nat.pow_le_pow_left (by omega) width
  have expands :=
    Refutation.expands_of_isUniversal accepted.distinct universalGoals
      (Nat.le_trans fewChoices enough) small
  have isProven : Refutation.outcomeOf solver (theory.constants.map Prod.snd)
      ((Refutation.of theory program.conclusion).groundGoals limit) = .proven :=
    Refutation.outcomeOf_eq_proven_iff.mpr ((accepted.unsatisfiable_iff expands decides).mpr entails)
  simp only [prove, executed, Theory.prove, checked, bind, Except.bind, pure, Except.pure, isProven]

end Program

end Ergo
