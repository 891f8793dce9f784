import Ergo.Proofs.Theory.Attempts

/-!
Statements that are executed one after the other. What a theory accepts is given by rules, for terms
(`HasSort`), formulas (`WellFormed`) and statements (`Executes`), and by programs that change a stack
of bindings and a theory in place. Main statement: the two agree, a statement that is refused leaves
the theory as it was, and a program fails for its first statement that is refused
(`execution_checked`).
-/

namespace Ergo

namespace Theory

variable {theory later : Theory} {bound : BoundSorts}

/-! ## Rules for formulas -/

/-- A variable has the sort that the innermost quantifier binding it gives it. Constants, and
variables that no quantifier binds, have the sort they are declared with. -/
inductive HasSort (theory : Theory) : BoundSorts → Term → String → Prop
  | constant {bound : BoundSorts} {name sortName : String} :
      theory.nameSort? name = some sortName → HasSort theory bound (.constant name) sortName
  | free {name sortName : String} :
      theory.nameSort? name = some sortName → HasSort theory [] (.var name) sortName
  | innermost {bound : BoundSorts} {name sortName : String} :
      HasSort theory ((name, sortName) :: bound) (.var name) sortName
  | outer {bound : BoundSorts} {name sortName other otherSort : String} :
      name ≠ other → HasSort theory bound (.var name) sortName →
      HasSort theory ((other, otherSort) :: bound) (.var name) sortName

/-- Symbols are applied to as many arguments, of such sorts, as they are declared with, and the two
sides of an equality have one sort. -/
inductive WellFormed (theory : Theory) : BoundSorts → Formula → Prop
  | truth {bound : BoundSorts} : WellFormed theory bound .truth
  | falsity {bound : BoundSorts} : WellFormed theory bound .falsity
  | atom {bound : BoundSorts} {predicate : String} {arguments : List Term} {domain : List String} :
      theory.domain? predicate = some domain →
      List.Forall₂ (theory.HasSort bound) arguments domain →
      WellFormed theory bound (.atom predicate arguments)
  | equal {bound : BoundSorts} {left right : Term} {sortName : String} :
      theory.HasSort bound left sortName → theory.HasSort bound right sortName →
      WellFormed theory bound (.equal left right)
  | not {bound : BoundSorts} {operand : Formula} :
      WellFormed theory bound operand → WellFormed theory bound (.not operand)
  | and {bound : BoundSorts} {parts : List Formula} :
      (∀ part ∈ parts, WellFormed theory bound part) → WellFormed theory bound (.and parts)
  | or {bound : BoundSorts} {parts : List Formula} :
      (∀ part ∈ parts, WellFormed theory bound part) → WellFormed theory bound (.or parts)
  | implies {bound : BoundSorts} {premise consequent : Formula} :
      WellFormed theory bound premise → WellFormed theory bound consequent →
      WellFormed theory bound (.implies premise consequent)
  | forAll {bound : BoundSorts} {binders : List String} {body : Formula} :
      WellFormed theory (theory.bindSorts binders ++ bound) body →
      WellFormed theory bound (.forAll binders body)
  | forSome {bound : BoundSorts} {binders : List String} {body : Formula} :
      WellFormed theory (theory.bindSorts binders ++ bound) body →
      WellFormed theory bound (.forSome binders body)

theorem termSort_eq_ok_iff_hasSort {term : Term} {sortName : String} :
    theory.termSort bound term = .ok sortName ↔ theory.HasSort bound term sortName := by
  rw [termSort_eq_ok_iff]
  cases term with
  | constant name =>
      refine ⟨.constant, fun sorted => ?_⟩
      cases sorted with
      | constant isSorted => exact isSorted
  | var name =>
      induction bound with
      | nil =>
          refine ⟨.free, fun sorted => ?_⟩
          cases sorted with
          | free isSorted => exact isSorted
      | cons binding bound induction =>
          obtain ⟨other, otherSort⟩ := binding
          rw [boundSort?] at induction ⊢
          by_cases isInnermost : name = other
          · subst isInnermost
            rw [List.lookup_cons_self, Option.some_or, Option.some.injEq]
            constructor
            · rintro rfl
              exact .innermost
            · intro sorted
              cases sorted with
              | innermost => rfl
              | outer differs _ => exact absurd rfl differs
          · rw [List.lookup_cons, beq_false_of_ne isInnermost]
            refine induction.trans ⟨.outer isInnermost, fun sorted => ?_⟩
            cases sorted with
            | innermost => exact absurd rfl isInnermost
            | outer _ sorted => exact sorted

theorem checkAtom_eq_ok_iff_wellFormed {predicate : String} {arguments : List Term} :
    theory.checkAtom bound predicate arguments = .ok () ↔
      theory.WellFormed bound (.atom predicate arguments) := by
  simp only [checkAtom_eq_ok_iff, termSort_eq_ok_iff_hasSort]
  constructor
  · rintro ⟨domain, isApplied, sorted⟩
    exact .atom isApplied sorted
  · intro wellFormed
    cases wellFormed with
    | atom isApplied sorted => exact ⟨_, isApplied, sorted⟩

theorem checkEqual_eq_ok_iff {left right : Term} :
    theory.checkEqual bound left right = .ok () ↔
      theory.WellFormed bound (.equal left right) := by
  simp only [checkEqual, bind_eq_ok_iff, termSort_eq_ok_iff_hasSort]
  constructor
  · rintro ⟨expected, leftSort, actual, rightSort, same⟩
    split at same
    · next equalSorts => exact .equal leftSort (eq_of_beq equalSorts ▸ rightSort)
    · cases same
  · intro wellFormed
    cases wellFormed with
    | equal leftSort rightSort => exact ⟨_, leftSort, _, rightSort, if_pos (beq_self_eq_true _)⟩

/-- A formula is accepted just if it is well formed. -/
theorem checkFormula_eq_ok_iff {formula : Formula} :
    theory.checkFormula bound formula = .ok () ↔ theory.WellFormed bound formula := by
  induction formula generalizing bound with
  | truth => exact iff_of_true rfl .truth
  | falsity => exact iff_of_true rfl .falsity
  | atom predicate arguments => exact checkAtom_eq_ok_iff_wellFormed
  | equal left right => exact checkEqual_eq_ok_iff
  | not operand induction => exact induction.trans ⟨.not, by rintro ⟨⟩; assumption⟩
  | and parts induction =>
      rw [checkFormula, checkFormulas_eq_ok_iff]
      refine Iff.trans ?_ ⟨.and, by rintro ⟨⟩; assumption⟩
      exact forall₂_congr fun part member => induction part member
  | or parts induction =>
      rw [checkFormula, checkFormulas_eq_ok_iff]
      refine Iff.trans ?_ ⟨.or, by rintro ⟨⟩; assumption⟩
      exact forall₂_congr fun part member => induction part member
  | implies premise consequent premiseInduction consequentInduction =>
      rw [checkFormula, bind_eq_ok_iff]
      constructor
      · rintro ⟨_, premiseAccepted, consequentAccepted⟩
        exact .implies (premiseInduction.mp premiseAccepted)
          (consequentInduction.mp consequentAccepted)
      · intro wellFormed
        cases wellFormed with
        | implies premise consequent =>
            exact ⟨(), premiseInduction.mpr premise, consequentInduction.mpr consequent⟩
  | forAll binders body induction =>
      exact induction.trans ⟨.forAll, by rintro ⟨⟩; assumption⟩
  | forSome binders body induction =>
      exact induction.trans ⟨.forSome, by rintro ⟨⟩; assumption⟩

/-! ## Rules for statements -/

/-- Sorts are declared in any case. A symbol is declared over declared sorts, and only the first of
its name is kept. -/
inductive Executes (theory : Theory) : Statement → Theory → Prop
  | sort (name : String) :
      Executes theory (.declare (.sort name)) { theory with sorts := theory.sorts.insert name }
  | symbol {declaration : Declaration} :
      declaration.kind ≠ .sort → (∀ sortName ∈ declaration.namedSorts, sortName ∈ theory.sorts) →
      theory.lookup? declaration.name = none →
      Executes theory (.declare declaration)
        { theory with symbols := theory.symbols ++ [declaration] }
  | redeclared {declaration first : Declaration} :
      declaration.kind ≠ .sort → (∀ sortName ∈ declaration.namedSorts, sortName ∈ theory.sorts) →
      theory.lookup? declaration.name = some first →
      Executes theory (.declare declaration) theory
  | assert {formula : Formula} :
      theory.WellFormed [] formula →
      Executes theory (.assert formula)
        { theory with assertions := theory.assertions ++ [formula] }

theorem checkSorts_eq_ok_iff {sorts : List String} :
    theory.checkSorts sorts = .ok () ↔ ∀ sortName ∈ sorts, sortName ∈ theory.sorts := by
  rw [checkSorts]
  split
  · next sortName found =>
      refine iff_of_false (by simp) fun declared => ?_
      have undeclared : theory.sorts.contains sortName = false := by
        simpa using List.find?_some found
      rw [NameSet.contains_iff_mem.mpr (declared sortName (List.mem_of_find?_eq_some found))]
        at undeclared
      cases undeclared
  · next found => simpa using found

theorem declare_eq {declaration : Declaration} (isSymbol : declaration.kind ≠ .sort) :
    theory.declare declaration =
      (theory.checkSorts declaration.namedSorts).map fun _ => theory.addSymbol declaration := by
  have unfolded : theory.declare declaration =
      (do theory.checkSorts declaration.namedSorts; return theory.addSymbol declaration) := by
    cases declaration with
    | sort name => exact absurd rfl isSymbol
    | _ => rfl
  rw [unfolded]
  cases theory.checkSorts declaration.namedSorts <;> rfl

theorem executes_addSymbol {declaration : Declaration} (isSymbol : declaration.kind ≠ .sort)
    (declared : ∀ sortName ∈ declaration.namedSorts, sortName ∈ theory.sorts) :
    theory.Executes (.declare declaration) (theory.addSymbol declaration) := by
  cases found : theory.lookup? declaration.name with
  | none =>
      rw [addSymbol, found]
      exact .symbol isSymbol declared found
  | some first =>
      rw [addSymbol, found]
      exact .redeclared isSymbol declared found

/-- A statement is executed just as the rules allow. -/
theorem execute_eq_ok_iff {statement : Statement} :
    theory.execute statement = .ok later ↔ theory.Executes statement later := by
  cases statement with
  | assert formula =>
      rw [execute, bind_eq_ok_iff]
      constructor
      · rintro ⟨_, accepted, same⟩
        cases same
        exact .assert (checkFormula_eq_ok_iff.mp accepted)
      · intro executes
        cases executes with
        | assert wellFormed => exact ⟨(), checkFormula_eq_ok_iff.mpr wellFormed, rfl⟩
  | declare declaration =>
      rw [execute]
      by_cases isSort : declaration.kind = .sort
      · cases declaration with
        | sort name =>
            constructor
            · rintro ⟨⟩
              exact .sort name
            · intro executes
              cases executes with
              | sort => rfl
              | symbol isSymbol => exact absurd isSort isSymbol
              | redeclared isSymbol => exact absurd isSort isSymbol
        | _ => cases isSort
      · rw [declare_eq isSort, map_eq_ok_iff]
        constructor
        · rintro ⟨_, checked, rfl⟩
          exact executes_addSymbol isSort (checkSorts_eq_ok_iff.mp checked)
        · intro executes
          cases executes with
          | sort => exact absurd rfl isSort
          | symbol _ declared isNew =>
              refine ⟨(), checkSorts_eq_ok_iff.mpr declared, ?_⟩
              rw [addSymbol, isNew]
              rfl
          | redeclared _ declared found =>
              refine ⟨(), checkSorts_eq_ok_iff.mpr declared, ?_⟩
              rw [addSymbol, found]
              rfl

/-! ## Changes in place -/

/-- The bindings that a quantifier pushes on the stack for its variables. -/
def pushed (theory : Theory) (binders : List String) : BoundSorts :=
  binders.map fun name => (name, theory.variableSort name)

/-- The stack is cut back to its depth whatever the check gives. -/
def inside (theory : Theory) (binders : List String)
    (check : EStateM IllFormed BoundSorts Unit) : EStateM IllFormed BoundSorts Unit := fun stack =>
  match check.run (stack ++ theory.pushed binders) with
  | .ok _ final => .ok () (final.take stack.length)
  | .error error final => .error error (final.take stack.length)

mutual
/-- Checks a formula under the bindings on a stack, the innermost last. -/
def walk (theory : Theory) : Formula → EStateM IllFormed BoundSorts Unit
  | .truth => return ()
  | .falsity => return ()
  | .atom predicate arguments => do
      MonadExcept.ofExcept (theory.checkAtom (← get).reverse predicate arguments)
  | .equal left right => do
      MonadExcept.ofExcept (theory.checkEqual (← get).reverse left right)
  | .not operand => theory.walk operand
  | .and parts => theory.walkAll parts
  | .or parts => theory.walkAll parts
  | .implies premise consequent => do
      theory.walk premise
      theory.walk consequent
  | .forAll binders body => theory.inside binders (theory.walk body)
  | .forSome binders body => theory.inside binders (theory.walk body)

def walkAll (theory : Theory) : List Formula → EStateM IllFormed BoundSorts Unit
  | [] => return ()
  | part :: parts => do
      theory.walk part
      theory.walkAll parts
end

def requireSort (sortName : String) : EStateM IllFormed Theory Unit := do
  unless (← get).sorts.contains sortName do throw (.unknownSort sortName)

def declareSymbol (declaration : Declaration) : EStateM IllFormed Theory Unit := do
  declaration.namedSorts.forM requireSort
  unless ((← get).lookup? declaration.name).isSome do
    modify fun theory => { theory with symbols := theory.symbols ++ [declaration] }

/-- Executes a statement on a theory that is changed in place. -/
def perform : Statement → EStateM IllFormed Theory Unit
  | .declare (.sort name) =>
      modify fun theory => { theory with sorts := theory.sorts.insert name }
  | .declare declaration => declareSymbol declaration
  | .assert formula => do
      match ((← get).walk formula).run [] with
      | .ok _ _ =>
          modify fun theory => { theory with assertions := theory.assertions ++ [formula] }
      | .error error _ => throw error

section

variable {state : Type} {start : state} {result : Except IllFormed Unit}

/-- The result of a computation that ends in this state. -/
def endsIn (final : state) : Except IllFormed Unit → EStateM.Result IllFormed state Unit
  | .ok _ => .ok () final
  | .error error => .error error final

theorem run_ofExcept :
    (MonadExcept.ofExcept result : EStateM IllFormed state Unit).run start = endsIn start result := by
  cases result <;> rfl

theorem run_seq {first second : EStateM IllFormed state Unit} {secondResult : Except IllFormed Unit}
    (firstRun : first.run start = endsIn start result)
    (secondRun : second.run start = endsIn start secondResult) :
    (do first; second : EStateM IllFormed state Unit).run start =
      endsIn start (do result; secondResult) := by
  rw [EStateM.run_bind, firstRun]
  cases result with
  | error error => rfl
  | ok _ => exact secondRun

end

theorem reverse_push (stack : BoundSorts) (binders : List String) :
    (stack ++ theory.pushed binders).reverse = theory.bindSorts binders ++ stack.reverse :=
  List.reverse_append

theorem run_inside {binders : List String} {check : EStateM IllFormed BoundSorts Unit}
    {stack : BoundSorts} {result : Except IllFormed Unit}
    (checked : check.run (stack ++ theory.pushed binders) =
      endsIn (stack ++ theory.pushed binders) result) :
    (theory.inside binders check).run stack = endsIn stack result := by
  simp only [EStateM.run, inside] at checked ⊢
  rw [checked]
  cases result <;> simp [endsIn]

theorem run_walkAll {parts : List Formula} {stack : BoundSorts}
    (each : ∀ part ∈ parts,
      (theory.walk part).run stack = endsIn stack (theory.checkFormula stack.reverse part)) :
    (theory.walkAll parts).run stack = endsIn stack (theory.checkFormulas stack.reverse parts) := by
  induction parts with
  | nil => rfl
  | cons part parts induction =>
      rw [List.forall_mem_cons] at each
      exact run_seq each.1 (induction each.2)

/-- The check ends with the stack it began with, and gives what the check of the formula inside the
bindings on the stack gives. -/
theorem run_walk (formula : Formula) (stack : BoundSorts) :
    (theory.walk formula).run stack = endsIn stack (theory.checkFormula stack.reverse formula) := by
  induction formula generalizing stack with
  | truth => rfl
  | falsity => rfl
  | atom predicate arguments => exact run_ofExcept
  | equal left right => exact run_ofExcept
  | not operand induction => exact induction stack
  | and parts induction => exact run_walkAll fun part member => induction part member stack
  | or parts induction => exact run_walkAll fun part member => induction part member stack
  | implies premise consequent premiseInduction consequentInduction =>
      exact run_seq (premiseInduction stack) (consequentInduction stack)
  | forAll binders body induction =>
      refine run_inside ?_
      rw [induction, reverse_push]
      rfl
  | forSome binders body induction =>
      refine run_inside ?_
      rw [induction, reverse_push]
      rfl

theorem run_requireSort (sortName : String) :
    (requireSort sortName).run theory = endsIn theory (theory.checkSorts [sortName]) := by
  rw [requireSort, EStateM.run_bind, EStateM.run_get]
  cases declared : theory.sorts.contains sortName <;> simp [checkSorts, declared, endsIn]

theorem checkSorts_cons (sortName : String) (sorts : List String) :
    theory.checkSorts (sortName :: sorts) =
      (do theory.checkSorts [sortName]; theory.checkSorts sorts) := by
  cases declared : theory.sorts.contains sortName <;> simp [checkSorts, declared] <;> rfl

theorem run_requireSorts (sorts : List String) :
    (sorts.forM requireSort).run theory = endsIn theory (theory.checkSorts sorts) := by
  induction sorts with
  | nil => rfl
  | cons sortName sorts induction =>
      rw [checkSorts_cons]
      exact run_seq (run_requireSort sortName) induction

theorem run_declareSymbol {declaration : Declaration} (isSymbol : declaration.kind ≠ .sort) :
    (declareSymbol declaration).run theory =
      match theory.declare declaration with
      | .ok later => .ok () later
      | .error error => .error error theory := by
  rw [declareSymbol, EStateM.run_bind, run_requireSorts, declare_eq isSymbol]
  cases theory.checkSorts declaration.namedSorts with
  | error error => rfl
  | ok _ =>
      simp only [endsIn, EStateM.run_bind, EStateM.run_get, Except.map, addSymbol]
      cases (theory.lookup? declaration.name).isSome <;> rfl

/-- A statement that is refused leaves the theory as it was. -/
theorem run_perform (theory : Theory) (statement : Statement) :
    (perform statement).run theory =
      match theory.execute statement with
      | .ok later => .ok () later
      | .error error => .error error theory := by
  cases statement with
  | assert formula =>
      have walked : (theory.walk formula).run [] = endsIn [] (theory.check formula) :=
        run_walk formula []
      rw [perform, EStateM.run_bind, EStateM.run_get]
      simp only [walked]
      rw [execute]
      cases theory.check formula <;> rfl
  | declare declaration =>
      cases declaration with
      | sort name => rfl
      | _ => exact run_declareSymbol (by rintro ⟨⟩)

/-! ## Lists of statements -/

theorem attempt_of_execute {statement : Statement}
    (executed : theory.execute statement = .ok later) : theory.attempt statement = later := by
  rw [attempt, executed]
  rfl

theorem attemptAll_of_executeAll {statements : List Statement}
    (executed : theory.executeAll statements = .ok later) :
    theory.attemptAll statements = later := by
  induction statements generalizing theory with
  | nil =>
      cases executed
      rfl
  | cons statement statements induction =>
      obtain ⟨next, step, executedLater⟩ := executeAll_cons executed
      rw [attemptAll, List.foldl_cons, attempt_of_execute step]
      exact induction executedLater

/-- The statement is refused after all those before it are accepted. -/
def FailsAt (theory : Theory) (before : List Statement) (statement : Statement)
    (error : IllFormed) : Prop :=
  ∃ middle, theory.executeAll before = .ok middle ∧ middle.execute statement = .error error

theorem FailsAt.cons {before : List Statement} {first statement : Statement} {error : IllFormed}
    (executed : theory.execute first = .ok later) (failsLater : later.FailsAt before statement error) :
    theory.FailsAt (first :: before) statement error := by
  obtain ⟨middle, executedBefore, refused⟩ := failsLater
  exact ⟨middle, by rwa [executeAll_cons_of_ok executed], refused⟩

/-- A list of statements fails for the first that is refused. -/
theorem executeAll_eq_error_iff {statements : List Statement} {failure : ProofError} :
    theory.executeAll statements = .error failure ↔
      ∃ before statement after error, statements = before ++ statement :: after ∧
        theory.FailsAt before statement error ∧
        failure = .premise statement.render (.illFormed error) := by
  constructor
  · intro failed
    induction statements generalizing theory with
    | nil => cases failed
    | cons statement statements induction =>
        rw [executeAll] at failed
        cases executed : theory.execute statement with
        | error error =>
            rw [executed] at failed
            cases failed
            exact ⟨[], statement, statements, error, rfl, ⟨theory, rfl, executed⟩, rfl⟩
        | ok next =>
            rw [executed] at failed
            obtain ⟨before, other, after, error, rfl, failsAt, named⟩ := induction failed
            exact ⟨statement :: before, other, after, error, rfl, failsAt.cons executed, named⟩
  · rintro ⟨before, statement, after, error, rfl, ⟨middle, executed, refused⟩, rfl⟩
    rw [executeAll_append_of_ok executed, executeAll, refused]

/-- A list of statements fails just if one of them is refused by the theory that those before it
leave, with the refused ones among them passed over. -/
theorem exists_error_executeAll_iff {statements : List Statement} :
    (∃ failure, theory.executeAll statements = .error failure) ↔
      ∃ before statement after, statements = before ++ statement :: after ∧
        ∃ error, (theory.attemptAll before).execute statement = .error error := by
  constructor
  · rintro ⟨failure, failed⟩
    obtain ⟨before, statement, after, error, split, ⟨middle, executed, refused⟩, -⟩ :=
      executeAll_eq_error_iff.mp failed
    exact ⟨before, statement, after, split, error, attemptAll_of_executeAll executed ▸ refused⟩
  · rintro ⟨before, statement, after, rfl, error, refused⟩
    rw [exists_error_iff]
    rintro ⟨final, executed⟩
    obtain ⟨middle, executedBefore, executedAfter⟩ := executeAll_append executed
    obtain ⟨next, step, -⟩ := executeAll_cons executedAfter
    rw [attemptAll_of_executeAll executedBefore, step] at refused
    cases refused

end Theory

/-! ## Programs -/

theorem Program.prove_eq_premise_iff {program : Program} {solver : Ground.Solver} {limit : Nat}
    {text : String} {objection : Objection} :
    program.prove solver limit = .error (.premise text objection) ↔
      Theory.empty.executeAll program.statements = .error (.premise text objection) := by
  unfold prove
  cases Theory.empty.executeAll program.statements with
  | error failure => simp [bind, Except.bind]
  | ok theory =>
      refine iff_of_false ?_ (by rintro ⟨⟩)
      cases proved : theory.prove solver limit program.conclusion <;> simp [bind, Except.bind, proved]

theorem Program.exists_premise_iff {program : Program} {solver : Ground.Solver} {limit : Nat} :
    (∃ text objection, program.prove solver limit = .error (.premise text objection)) ↔
      ∃ failure, Theory.empty.executeAll program.statements = .error failure := by
  simp only [prove_eq_premise_iff]
  constructor
  · rintro ⟨text, objection, failed⟩
    exact ⟨_, failed⟩
  · rintro ⟨failure, failed⟩
    obtain ⟨_, statement, _, error, _, _, rfl⟩ := Theory.executeAll_eq_error_iff.mp failed
    exact ⟨_, _, failed⟩

/-- A statement is executed just as the rules allow, and one that is refused leaves the theory as it
was. A formula is asserted just if it is well formed. A program fails in its premises just if one of
its statements is refused by what those before it leave, and the first such statement is named. -/
theorem Theory.execution_checked :
    (∀ (theory : Theory) (statement : Statement),
      (∃ later, theory.Executes statement later ∧ theory.execute statement = .ok later ∧
          (perform statement).run theory = .ok () later) ∨
        ∃ error, (¬ ∃ later, theory.Executes statement later) ∧
          theory.execute statement = .error error ∧
          (perform statement).run theory = .error error theory) ∧
    (∀ (theory : Theory) (formula : Formula),
      (∃ later, theory.execute (.assert formula) = .ok later) ↔ theory.WellFormed [] formula) ∧
    ∀ (program : Program) (solver : Ground.Solver) (limit : Nat),
      ((∃ text objection, program.prove solver limit = .error (.premise text objection)) ↔
        ∃ before statement after, program.statements = before ++ statement :: after ∧
          ∃ error, (empty.attemptAll before).execute statement = .error error) ∧
      ∀ text objection, program.prove solver limit = .error (.premise text objection) ↔
        ∃ before statement after error, program.statements = before ++ statement :: after ∧
          empty.FailsAt before statement error ∧
          text = statement.render ∧ objection = .illFormed error := by
  refine ⟨fun theory statement => ?_, fun theory formula => ?_, fun program solver limit => ⟨?_, ?_⟩⟩
  · have performed := run_perform theory statement
    cases executed : theory.execute statement with
    | ok later =>
        rw [executed] at performed
        exact .inl ⟨later, execute_eq_ok_iff.mp executed, rfl, performed⟩
    | error error =>
        rw [executed] at performed
        refine .inr ⟨error, ?_, rfl, performed⟩
        rintro ⟨later, executes⟩
        rw [execute_eq_ok_iff.mpr executes] at executed
        cases executed
  · simp only [execute_eq_ok_iff]
    constructor
    · rintro ⟨later, executes⟩
      cases executes with
      | assert wellFormed => exact wellFormed
    · intro wellFormed
      exact ⟨_, .assert wellFormed⟩
  · exact Program.exists_premise_iff.trans exists_error_executeAll_iff
  · intro text objection
    simp only [Program.prove_eq_premise_iff, executeAll_eq_error_iff, ProofError.premise.injEq]

-- The variable ranges over the sort declared for it before, which is not that of the predicate.
example :
    ({ statements := [.declare (.sort "Set"), .declare (.var "x" "Set"),
        .declare (.predicate "P" [objectSort]), .declare (.var "x" objectSort),
        .assert (.forAll ["x"] (.atom "P" [.var "x"])), .assert (.atom "Q" [])],
       conclusion := .truth } : Program).prove .search 0 =
      .error (.premise "assert ForAll([x], P(x))"
        (.illFormed (.wrongSort "P" 0 objectSort "Set"))) := by
  rfl

end Ergo
