import Ergo.Proofs.Ground.Facts

/-!
The search for a model decides ground sentences. Main statements: the valuation of a model that is
found is congruent and makes the goals true (`eval_of_model?`), and a model is found if some congruent
valuation makes the goals true (`model?_isSome`).
-/

namespace Ergo.Ground

variable {facts next : Facts} {goals : List Sentence} {valuation : Atom → Bool}

/-! ## Simplification -/

namespace Sentence

@[simp] theorem simplifyParts_eq_map (facts : Facts) (parts : List Sentence) :
    simplifyParts facts parts = parts.map (simplify facts) := by
  induction parts with
  | nil => rfl
  | cons part parts induction => rw [simplifyParts, induction, List.map_cons]

theorem eval_simplify (agrees : facts.Agrees valuation) (congruent : Congruent valuation)
    (sentence : Sentence) :
    eval valuation (sentence.simplify facts) = eval valuation sentence := by
  induction sentence with
  | literal sign atom =>
      rw [simplify, eval_literal, ← agrees.rename congruent atom]
      split
      · next known found =>
          rw [agrees.value? congruent found]
          cases known == sign
          · exact eval_falsum
          · exact eval_verum
      · exact eval_literal sign _
  | all parts induction =>
      rw [simplify, simplifyParts_eq_map, eval_conjoin, List.all_map, eval_all,
        Bool.eq_iff_iff, List.all_eq_true, List.all_eq_true]
      exact forall₂_congr fun part member => by rw [Function.comp_apply, induction part member]
  | any parts induction =>
      rw [simplify, simplifyParts_eq_map, eval_disjoin, List.any_map, eval_any,
        Bool.eq_iff_iff, List.any_eq_true, List.any_eq_true]
      exact exists_congr fun part => and_congr_right fun member => by
        rw [Function.comp_apply, induction part member]

theorem exists_of_mem_atoms_simplify {sentence : Sentence} {atom : Atom}
    (member : atom ∈ (sentence.simplify facts).atoms) :
    ∃ before ∈ sentence.atoms, atom = facts.rename before := by
  induction sentence with
  | literal sign before =>
      refine ⟨before, by simp [atoms], ?_⟩
      rw [simplify] at member
      split at member
      · split at member
        · simp [verum, atoms] at member
        · simp [falsum, atoms] at member
      · simpa [atoms] using member
  | all parts induction =>
      rw [simplify, simplifyParts_eq_map] at member
      obtain ⟨form, inForms, inside⟩ := List.mem_flatMap.mp (atoms_conjoin_subset _ member)
      obtain ⟨part, inParts, rfl⟩ := List.mem_map.mp inForms
      obtain ⟨before, occurs, renamed⟩ := induction part inParts inside
      refine ⟨before, ?_, renamed⟩
      rw [atoms, partsAtoms_eq_flatMap]
      exact List.mem_flatMap.mpr ⟨part, inParts, occurs⟩
  | any parts induction =>
      rw [simplify, simplifyParts_eq_map] at member
      obtain ⟨form, inForms, inside⟩ := List.mem_flatMap.mp (atoms_disjoin_subset _ member)
      obtain ⟨part, inParts, rfl⟩ := List.mem_map.mp inForms
      obtain ⟨before, occurs, renamed⟩ := induction part inParts inside
      refine ⟨before, ?_, renamed⟩
      rw [atoms, partsAtoms_eq_flatMap]
      exact List.mem_flatMap.mpr ⟨part, inParts, occurs⟩

end Sentence

/-! ## Propagation -/

/-- The valuation has what is known and makes the goals true. -/
structure Meets (facts : Facts) (goals : List Sentence) (valuation : Atom → Bool) : Prop where
  agrees : facts.Agrees valuation
  goals : ∀ goal ∈ goals, goal.eval valuation = true

theorem assumeAll?_spec (congruent : Congruent valuation) (coherent : facts.Coherent)
    {literals : List (Bool × Atom)} :
    (∃ next, assumeAll? facts literals = some next ∧ next.Agrees valuation) ↔
      facts.Agrees valuation ∧ ∀ literal ∈ literals, valuation literal.2 = literal.1 := by
  induction literals generalizing facts with
  | nil => simp [assumeAll?]
  | cons literal literals induction =>
      obtain ⟨sign, atom⟩ := literal
      have fixed := coherent.rename_rename atom
      have step := Facts.assume?_spec congruent fixed sign
      simp only [assumeAll?, Option.bind_eq_bind, Option.bind_eq_some_iff, List.forall_mem_cons]
      constructor
      · rintro ⟨final, ⟨middle, assumed, later⟩, agrees⟩
        obtain ⟨middleAgrees, rest⟩ :=
          (induction (coherent.assume? fixed assumed).1).mp ⟨final, later, agrees⟩
        obtain ⟨factsAgrees, holds⟩ := step.mp ⟨middle, assumed, middleAgrees⟩
        rw [factsAgrees.rename congruent] at holds
        exact ⟨factsAgrees, holds, rest⟩
      · rintro ⟨agrees, holds, rest⟩
        rw [← agrees.rename congruent] at holds
        obtain ⟨middle, assumed, middleAgrees⟩ := step.mpr ⟨agrees, holds⟩
        obtain ⟨final, later, finalAgrees⟩ :=
          (induction (coherent.assume? fixed assumed).1).mpr ⟨middleAgrees, rest⟩
        exact ⟨final, ⟨middle, assumed, later⟩, finalAgrees⟩

theorem Facts.Coherent.assumeAll? (coherent : facts.Coherent) {literals : List (Bool × Atom)}
    (assumed : assumeAll? facts literals = some next) :
    next.Coherent ∧ facts.RefinedBy next := by
  induction literals generalizing facts with
  | nil =>
      rw [Ground.assumeAll?, Option.some.injEq] at assumed
      exact assumed ▸ ⟨coherent, coherent.refl⟩
  | cons literal literals induction =>
      obtain ⟨sign, atom⟩ := literal
      simp only [Ground.assumeAll?, Option.bind_eq_bind, Option.bind_eq_some_iff] at assumed
      obtain ⟨middle, first, later⟩ := assumed
      obtain ⟨middleCoherent, refined⟩ := coherent.assume? (coherent.rename_rename atom) first
      obtain ⟨nextCoherent, laterRefined⟩ := induction middleCoherent later
      exact ⟨nextCoherent, refined.trans laterRefined⟩

def simplified (facts : Facts) (goals : List Sentence) : List Sentence :=
  goals.flatMap fun goal => (goal.simplify facts).conjuncts

theorem eval_simplified (agrees : facts.Agrees valuation) (congruent : Congruent valuation) :
    (∀ goal ∈ simplified facts goals, goal.eval valuation = true) ↔
      ∀ goal ∈ goals, goal.eval valuation = true := by
  rw [← List.all_eq_true, ← List.all_eq_true, simplified, List.all_flatMap]
  simp only [Sentence.all_eval_conjuncts, Sentence.eval_simplify agrees congruent]

theorem exists_of_mem_atoms_simplified {goal : Sentence} {atom : Atom}
    (member : goal ∈ simplified facts goals) (occurs : atom ∈ goal.atoms) :
    ∃ earlier ∈ goals, ∃ before ∈ earlier.atoms, atom = facts.rename before := by
  obtain ⟨earlier, inGoals, inConjuncts⟩ := List.mem_flatMap.mp member
  have inSimplified : atom ∈ (earlier.simplify facts).atoms := by
    rw [← Sentence.flatMap_atoms_conjuncts]
    exact List.mem_flatMap.mpr ⟨goal, inConjuncts, occurs⟩
  exact ⟨earlier, inGoals, Sentence.exists_of_mem_atoms_simplify inSimplified⟩

theorem eval_literals_and_others :
    (∀ goal ∈ goals, goal.eval valuation = true) ↔
      (∀ literal ∈ goals.filterMap Sentence.literal?, valuation literal.2 = literal.1) ∧
        ∀ goal ∈ goals.filter fun goal => goal.literal?.isNone, goal.eval valuation = true := by
  induction goals with
  | nil => simp
  | cons goal goals induction =>
      rw [List.forall_mem_cons, induction]
      cases goal with
      | literal sign atom => simp [Sentence.literal?, and_assoc]
      | all parts => simp [Sentence.literal?]; tauto
      | any parts => simp [Sentence.literal?]; tauto

def literalsOf (goals : List Sentence) : List (Bool × Atom) :=
  goals.filterMap Sentence.literal?

def othersOf (goals : List Sentence) : List Sentence :=
  goals.filter fun goal => goal.literal?.isNone

theorem propagate?_succ (rounds : Nat) (facts : Facts) (goals : List Sentence) :
    propagate? (rounds + 1) facts goals =
      if (simplified facts goals).any Sentence.isFalsum then none
      else if (literalsOf (simplified facts goals)).isEmpty then
        some (facts, simplified facts goals)
      else (assumeAll? facts (literalsOf (simplified facts goals))).bind fun facts' =>
        propagate? rounds facts' (othersOf (simplified facts goals)) :=
  rfl

theorem meets_simplified (congruent : Congruent valuation) :
    Meets facts (simplified facts goals) valuation ↔ Meets facts goals valuation := by
  constructor
  · intro meets
    exact ⟨meets.agrees, (eval_simplified meets.agrees congruent).mp meets.goals⟩
  · intro meets
    exact ⟨meets.agrees, (eval_simplified meets.agrees congruent).mpr meets.goals⟩

theorem propagate?_spec (congruent : Congruent valuation) (coherent : facts.Coherent)
    (rounds : Nat) (goals : List Sentence) :
    (∃ result, propagate? rounds facts goals = some result ∧ Meets result.1 result.2 valuation) ↔
      Meets facts goals valuation := by
  induction rounds generalizing facts goals with
  | zero => simp [propagate?]
  | succ rounds induction =>
      rw [← meets_simplified congruent, propagate?_succ]
      split
      · next someFalsum =>
          obtain ⟨goal, member, isFalsum⟩ := List.any_eq_true.mp someFalsum
          constructor
          · rintro ⟨result, none, _⟩
            exact absurd none (by simp)
          · intro meets
            have holds := meets.goals goal member
            rw [Sentence.eval_of_isFalsum isFalsum] at holds
            exact absurd holds Bool.false_ne_true
      · split
        · simp
        · constructor
          · rintro ⟨result, propagated, meets⟩
            obtain ⟨middle, assumed, later⟩ := Option.bind_eq_some_iff.mp propagated
            have middleMeets := (induction (coherent.assumeAll? assumed).1 _).mp
              ⟨result, later, meets⟩
            obtain ⟨agrees, literals⟩ := (assumeAll?_spec congruent coherent).mp
              ⟨middle, assumed, middleMeets.agrees⟩
            exact ⟨agrees, eval_literals_and_others.mpr ⟨literals, middleMeets.goals⟩⟩
          · intro meets
            obtain ⟨literals, others⟩ := eval_literals_and_others.mp meets.goals
            obtain ⟨middle, assumed, agrees⟩ := (assumeAll?_spec congruent coherent).mpr
              ⟨meets.agrees, literals⟩
            obtain ⟨result, later, resultMeets⟩ :=
              (induction (coherent.assumeAll? assumed).1 _).mpr ⟨agrees, others⟩
            exact ⟨result, Option.bind_eq_some_iff.mpr ⟨middle, assumed, later⟩, resultMeets⟩

/-- What propagation leaves alone. -/
structure Propagated (facts : Facts) (goals : List Sentence) (next : Facts)
    (nextGoals : List Sentence) : Prop where
  coherent : next.Coherent
  refined : facts.RefinedBy next
  agrees : ∀ valuation, Congruent valuation → next.Agrees valuation → facts.Agrees valuation
  atoms : ∀ goal ∈ nextGoals, ∀ atom ∈ goal.atoms,
    ∃ earlier ∈ goals, ∃ before ∈ earlier.atoms, next.rename atom = next.rename before

theorem Facts.Coherent.propagate? (coherent : facts.Coherent) {rounds : Nat}
    {nextGoals : List Sentence}
    (propagated : propagate? rounds facts goals = some (next, nextGoals)) :
    Propagated facts goals next nextGoals := by
  induction rounds generalizing facts goals with
  | zero =>
      simp only [Ground.propagate?, Option.some.injEq, Prod.mk.injEq] at propagated
      obtain ⟨rfl, rfl⟩ := propagated
      exact ⟨coherent, coherent.refl, fun _ _ agrees => agrees, fun goal member atom occurs =>
        ⟨goal, member, atom, occurs, rfl⟩⟩
  | succ rounds induction =>
      rw [propagate?_succ] at propagated
      split at propagated
      · exact absurd propagated (by simp)
      · split at propagated
        · simp only [Option.some.injEq, Prod.mk.injEq] at propagated
          obtain ⟨rfl, rfl⟩ := propagated
          refine ⟨coherent, coherent.refl, fun _ _ agrees => agrees,
            fun goal member atom occurs => ?_⟩
          obtain ⟨earlier, inGoals, before, inside, rfl⟩ :=
            exists_of_mem_atoms_simplified member occurs
          exact ⟨earlier, inGoals, before, inside, coherent.rename_rename before⟩
        · obtain ⟨middle, assumed, later⟩ := Option.bind_eq_some_iff.mp propagated
          obtain ⟨middleCoherent, middleRefined⟩ := coherent.assumeAll? assumed
          have rest := induction middleCoherent later
          have refined := middleRefined.trans rest.refined
          refine ⟨rest.coherent, refined, fun valuation congruent agrees => ?_,
            fun goal member atom occurs => ?_⟩
          · exact ((assumeAll?_spec congruent coherent).mp
              ⟨middle, assumed, rest.agrees valuation congruent agrees⟩).1
          obtain ⟨other, inOthers, between, inOther, same⟩ := rest.atoms goal member atom occurs
          obtain ⟨earlier, inGoals, before, inside, rfl⟩ :=
            exists_of_mem_atoms_simplified (List.mem_filter.mp inOthers).1 inOther
          exact ⟨earlier, inGoals, before, inside, same.trans (refined.rename before)⟩

/-! ## Decisions -/

/-- All valuations that have what is known give the atom one value. -/
def Facts.Determines (facts : Facts) (atom : Atom) : Prop :=
  ∀ first second, Congruent first → Congruent second →
    facts.Agrees first → facts.Agrees second → first atom = second atom

/-- Each atom of the goals is determined or waits for its decision. -/
def Covers (atoms : List Atom) (facts : Facts) (goals : List Sentence) : Prop :=
  ∀ goal ∈ goals, ∀ atom ∈ goal.atoms,
    (∃ waiting ∈ atoms, facts.rename waiting = facts.rename atom) ∨ facts.Determines atom

theorem settled_of_determines (coherent : facts.Coherent) (congruent : Congruent valuation)
    (meets : Meets facts goals valuation) (covers : Covers [] facts goals) :
    settled facts goals = true := by
  rw [settled, List.all_eq_true]
  intro goal member
  rw [← meets.goals goal member]
  apply Sentence.eval_congr
  intro atom occurs
  rcases covers goal member atom occurs with ⟨_, inEmpty, _⟩ | determined
  · exact absurd inEmpty (by simp)
  · exact determined _ _ facts.congruent_value congruent coherent.agrees_value meets.agrees

theorem Covers.skip {atom : Atom} {later : List Atom}
    (covers : Covers (atom :: later) facts goals)
    (closed : isOpen facts goals (facts.rename atom) = false) : Covers later facts goals := by
  intro goal member other occurs
  rcases covers goal member other occurs with ⟨waiting, inAtoms, same⟩ | determined
  · rcases List.mem_cons.mp inAtoms with rfl | inLater
    · right
      have known : (facts.value? (facts.rename other)).isSome := by
        by_contra unknown
        have isOpen : isOpen facts goals (facts.rename waiting) = true := by
          rw [Ground.isOpen, Bool.and_eq_true, same]
          refine ⟨by simpa using unknown, ?_⟩
          exact List.any_eq_true.mpr ⟨goal, member, List.any_eq_true.mpr
            ⟨other, occurs, beq_self_eq_true _⟩⟩
        exact absurd (closed.symm.trans isOpen) (by simp)
      obtain ⟨value, found⟩ := Option.isSome_iff_exists.mp known
      intro first second firstCongruent secondCongruent firstAgrees secondAgrees
      rw [← firstAgrees.rename firstCongruent, ← secondAgrees.rename secondCongruent,
        firstAgrees.value? firstCongruent found, secondAgrees.value? secondCongruent found]
    · exact .inl ⟨waiting, inLater, same⟩
  · exact .inr determined

theorem Covers.assume {atom : Atom} {later : List Atom} {sign : Bool}
    (coherent : facts.Coherent) (covers : Covers (atom :: later) facts goals)
    (assumed : facts.assume? sign (facts.rename atom) = some next) :
    Covers later next goals := by
  have fixed := coherent.rename_rename atom
  have refined := (coherent.assume? fixed assumed).2
  have before : ∀ {valuation}, Congruent valuation → next.Agrees valuation →
      facts.Agrees valuation ∧ valuation (facts.rename atom) = sign :=
    fun congruent agrees =>
      (Facts.assume?_spec congruent fixed sign).mp ⟨next, assumed, agrees⟩
  intro goal member other occurs
  rcases covers goal member other occurs with ⟨waiting, inAtoms, same⟩ | determined
  · rcases List.mem_cons.mp inAtoms with rfl | inLater
    · right
      have decided : ∀ {valuation}, Congruent valuation → next.Agrees valuation →
          valuation other = sign := by
        intro valuation congruent agrees
        obtain ⟨factsAgrees, holds⟩ := before congruent agrees
        rw [← factsAgrees.rename congruent, ← same, holds]
      intro first second firstCongruent secondCongruent firstAgrees secondAgrees
      rw [decided firstCongruent firstAgrees, decided secondCongruent secondAgrees]
    · left
      refine ⟨waiting, inLater, ?_⟩
      rw [← refined.rename waiting, same, refined.rename]
  · right
    intro first second firstCongruent secondCongruent firstAgrees secondAgrees
    exact determined first second firstCongruent secondCongruent
      (before firstCongruent firstAgrees).1 (before secondCongruent secondAgrees).1

theorem Covers.propagate {atoms : List Atom} {nextGoals : List Sentence}
    (covers : Covers atoms facts goals) (propagated : Propagated facts goals next nextGoals) :
    Covers atoms next nextGoals := by
  intro goal member atom occurs
  obtain ⟨earlier, inGoals, origin, inside, same⟩ := propagated.atoms goal member atom occurs
  rcases covers earlier inGoals origin inside with ⟨waiting, inAtoms, sameOrigin⟩ | determined
  · left
    refine ⟨waiting, inAtoms, ?_⟩
    rw [same, ← propagated.refined.rename waiting, sameOrigin, propagated.refined.rename]
  · right
    have value : ∀ {valuation}, Congruent valuation → next.Agrees valuation →
        valuation atom = valuation origin := by
      intro valuation congruent agrees
      rw [← agrees.rename congruent atom, same, agrees.rename congruent]
    intro first second firstCongruent secondCongruent firstAgrees secondAgrees
    rw [value firstCongruent firstAgrees, value secondCongruent secondAgrees]
    exact determined first second firstCongruent secondCongruent
      (propagated.agrees first firstCongruent firstAgrees)
      (propagated.agrees second secondCongruent secondAgrees)

/-! ## The search -/

def attempt (rounds : Nat) (later : List Atom) (facts : Facts) (goals : List Sentence)
    (atom : Atom) (sign : Bool) : Option Facts :=
  (facts.assume? sign (facts.rename atom)).bind fun middle =>
    (propagate? rounds middle goals).bind fun result => search? rounds later result.1 result.2

theorem search?_cons (rounds : Nat) (atom : Atom) (later : List Atom) (facts : Facts)
    (goals : List Sentence) :
    search? rounds (atom :: later) facts goals =
      if settled facts goals then some facts
      else if isOpen facts goals (facts.rename atom) then
        (attempt rounds later facts goals atom atom.expected).orElse fun _ =>
          attempt rounds later facts goals atom !atom.expected
      else search? rounds later facts goals :=
  rfl

theorem attempt_eq_some {rounds : Nat} {later : List Atom} {atom : Atom} {sign : Bool}
    {final : Facts} (found : attempt rounds later facts goals atom sign = some final) :
    ∃ middle result, facts.assume? sign (facts.rename atom) = some middle ∧
      propagate? rounds middle goals = some result ∧
      search? rounds later result.1 result.2 = some final := by
  obtain ⟨middle, assumed, rest⟩ := Option.bind_eq_some_iff.mp found
  obtain ⟨result, propagated, searched⟩ := Option.bind_eq_some_iff.mp rest
  exact ⟨middle, result, assumed, propagated, searched⟩

theorem meets_of_search? {rounds : Nat} {atoms : List Atom} {final : Facts}
    (coherent : facts.Coherent) (found : search? rounds atoms facts goals = some final) :
    Meets facts goals final.value := by
  have ofSettled : ∀ {facts : Facts} {goals : List Sentence}, facts.Coherent →
      settled facts goals = true → Meets facts goals facts.value :=
    fun coherent isSettled => ⟨coherent.agrees_value, List.all_eq_true.mp isSettled⟩
  induction atoms generalizing facts goals with
  | nil =>
      rw [search?] at found
      split at found
      · next isSettled =>
          rw [Option.some.injEq] at found
          exact found ▸ ofSettled coherent isSettled
      · exact absurd found (by simp)
  | cons atom later induction =>
      -- What meets the goals after a decision and its propagation met them before.
      have ofAttempt : ∀ sign, attempt rounds later facts goals atom sign = some final →
          Meets facts goals final.value := by
        intro sign attempted
        obtain ⟨middle, result, assumed, propagated, searched⟩ := attempt_eq_some attempted
        have fixed := coherent.rename_rename atom
        have middleCoherent := (coherent.assume? fixed assumed).1
        have meets := induction (middleCoherent.propagate? propagated).coherent searched
        have middleMeets := (propagate?_spec final.congruent_value middleCoherent rounds goals).mp
          ⟨result, propagated, meets⟩
        have agrees := ((Facts.assume?_spec final.congruent_value fixed sign).mp
          ⟨middle, assumed, middleMeets.agrees⟩).1
        exact ⟨agrees, middleMeets.goals⟩
      rw [search?_cons] at found
      split at found
      · next isSettled =>
          rw [Option.some.injEq] at found
          exact found ▸ ofSettled coherent isSettled
      · split at found
        · rw [Option.orElse_eq_or, Option.or_eq_some_iff] at found
          rcases found with expected | ⟨_, opposite⟩
          · exact ofAttempt _ expected
          · exact ofAttempt _ opposite
        · exact induction coherent found

theorem search?_isSome {atoms : List Atom} (congruent : Congruent valuation) (rounds : Nat)
    (coherent : facts.Coherent) (covers : Covers atoms facts goals)
    (meets : Meets facts goals valuation) :
    (search? rounds atoms facts goals).isSome := by
  induction atoms generalizing facts goals with
  | nil => simp [search?, settled_of_determines coherent congruent meets covers]
  | cons atom later induction =>
      -- The branch in which the atom has its value under the valuation keeps it among the models.
      have actual : (attempt rounds later facts goals atom (valuation atom)).isSome := by
        have fixed := coherent.rename_rename atom
        obtain ⟨middle, assumed, agrees⟩ :=
          (Facts.assume?_spec congruent fixed (valuation atom)).mpr
            ⟨meets.agrees, meets.agrees.rename congruent atom⟩
        have middleCoherent := (coherent.assume? fixed assumed).1
        obtain ⟨result, propagated, resultMeets⟩ :=
          (propagate?_spec congruent middleCoherent rounds goals).mpr ⟨agrees, meets.goals⟩
        rw [attempt, assumed, Option.bind_some, propagated, Option.bind_some]
        have rest := middleCoherent.propagate? propagated
        exact induction rest.coherent ((covers.assume coherent assumed).propagate rest) resultMeets
      rw [search?_cons]
      split
      · rfl
      · split
        · rw [Option.orElse_eq_or, Option.isSome_or, Bool.or_eq_true]
          by_cases expected : valuation atom = atom.expected
          · rw [← expected]
            exact .inl actual
          · rw [← Bool.eq_not_of_ne expected]
            exact .inr actual
        · next closed =>
            exact induction coherent (covers.skip (by simpa using closed)) meets

theorem covers_decisionOrder (facts : Facts) (goals : List Sentence) :
    Covers (decisionOrder goals) facts goals := by
  intro goal member atom occurs
  refine .inl ⟨atom, ?_, rfl⟩
  have listed : atom ∈ (goals.flatMap Sentence.atoms).eraseDups.reverse := by
    rw [List.mem_reverse, List.mem_eraseDups]
    exact List.mem_flatMap.mpr ⟨goal, member, occurs⟩
  unfold decisionOrder
  rw [List.mem_append, List.mem_filter, List.mem_filter]
  cases kind : atom.isEquality with
  | true => exact .inl ⟨listed, rfl⟩
  | false => exact .inr ⟨listed, rfl⟩

/-- The goals are true under the valuation of a model that is found. -/
theorem eval_of_model? {final : Facts} (found : model? goals = some final) :
    ∀ goal ∈ goals, goal.eval final.value = true := by
  obtain ⟨result, propagated, searched⟩ := Option.bind_eq_some_iff.mp found
  have meets := meets_of_search? (Facts.coherent_none.propagate? propagated).coherent searched
  exact ((propagate?_spec final.congruent_value Facts.coherent_none _ goals).mp
    ⟨result, propagated, meets⟩).goals

/-- A model is found if the goals are true under some congruent valuation. -/
theorem model?_isSome (congruent : Congruent valuation)
    (holds : ∀ goal ∈ goals, goal.eval valuation = true) : (model? goals).isSome := by
  obtain ⟨result, propagated, meets⟩ :=
    (propagate?_spec congruent Facts.coherent_none ((decisionOrder goals).length + 1) goals).mpr
      ⟨Facts.agrees_none congruent, holds⟩
  have rest := Facts.coherent_none.propagate? propagated
  have searched := search?_isSome congruent ((decisionOrder goals).length + 1)
    rest.coherent ((covers_decisionOrder .none goals).propagate rest) meets
  unfold model?
  simp only [propagated]
  exact searched

end Ergo.Ground
