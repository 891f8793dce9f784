import Ergo.Argument.Shapes
import Ergo.Proofs.Argument.Building
import Ergo.Proofs.Argument.Definitions

/-!
Definitions after any calls: declarations, assertions and checked assertions, those that are refused
among them. The table and the set stay in step with the statements, which are only added at the end,
one by each call that is granted (`granted_iff_statements_eq`); the first declaration of a name is the
only one; no formula is asserted twice; and what was asserted after a check uses each symbol as earlier
statements declare it, so that it is accepted ever after.
-/

namespace Ergo

/-- What definitions may be asked to add. -/
inductive Call
  | declare (declaration : Declaration)
  | assert (formula : Formula)
  | assertChecked (formula : Formula)
  deriving DecidableEq, Repr

namespace Call

def statement : Call → Statement
  | .declare declaration => .declare declaration
  | .assert formula => .assert formula
  | .assertChecked formula => .assert formula

def declaration? (call : Call) : Option Declaration :=
  call.statement.declaration?

end Call

namespace Definitions

variable {definitions later : Definitions} {call : Call} {calls : List Call} {formula : Formula}

def grant? (definitions : Definitions) : Call → Option Definitions
  | .declare declaration => definitions.declare? declaration
  | .assert formula => definitions.assert? formula
  | .assertChecked formula => definitions.assertChecked? formula

/-- The definitions after a call, and whether it was granted. -/
def answer (definitions : Definitions) (call : Call) : Definitions × Bool :=
  match definitions.grant? call with
  | some later => (later, true)
  | none => (definitions, false)

/-- The definitions after calls, granted or refused. -/
def answerAll (definitions : Definitions) : List Call → Definitions
  | [] => definitions
  | call :: calls => (definitions.answer call).1.answerAll calls

/-! ## One call -/

theorem declare?_eq_some {declaration : Declaration}
    (granted : definitions.declare? declaration = some later) :
    definitions.lookup? declaration.name = none ∧
      later = definitions.append (.declare declaration) := by
  unfold declare? at granted
  split at granted
  · cases granted
  · next new => exact ⟨by simpa using new, (Option.some.inj granted).symm⟩

theorem assert?_eq_some (granted : definitions.assert? formula = some later) :
    .assert formula ∉ definitions.statements ∧ later = definitions.append (.assert formula) := by
  unfold assert? at granted
  split at granted
  · cases granted
  · next new =>
      exact ⟨fun known => new (by simpa using mem_assertions_iff.mpr known),
        (Option.some.inj granted).symm⟩

theorem assertChecked?_eq_some_iff : definitions.assertChecked? formula = some later ↔
    definitions.accepts formula = true ∧ definitions.assert? formula = some later := by
  unfold assertChecked?
  split <;> simp [*]

/-- A call that is granted adds its statement at the end, and one that is refused adds nothing. -/
theorem answer_cases (definitions : Definitions) (call : Call) :
    (definitions.answer call = (definitions.append call.statement, true) ∧
      ((∃ declaration, call.statement = .declare declaration ∧
          definitions.lookup? declaration.name = none) ∨
        ∃ formula, call.statement = .assert formula ∧
          .assert formula ∉ definitions.statements)) ∨
    definitions.answer call = (definitions, false) := by
  unfold answer
  cases granted : definitions.grant? call with
  | none => exact .inr rfl
  | some later =>
      refine .inl ?_
      cases call with
      | declare declaration =>
          obtain ⟨new, rfl⟩ := declare?_eq_some granted
          exact ⟨rfl, .inl ⟨declaration, rfl, new⟩⟩
      | assert formula =>
          obtain ⟨new, rfl⟩ := assert?_eq_some granted
          exact ⟨rfl, .inr ⟨formula, rfl, new⟩⟩
      | assertChecked formula =>
          obtain ⟨new, rfl⟩ := assert?_eq_some (assertChecked?_eq_some_iff.mp granted).2
          exact ⟨rfl, .inr ⟨formula, rfl, new⟩⟩

theorem extends_answer (call : Call) : (definitions.answer call).1.Extends definitions := by
  rcases definitions.answer_cases call with ⟨granted, -⟩ | refused
  · rw [granted]
    exact extends_append _
  · rw [refused]
    exact .refl definitions

theorem granted_iff_statements_eq :
    (definitions.answer call).2 = true ↔
      (definitions.answer call).1.statements = definitions.statements ++ [call.statement] := by
  rcases definitions.answer_cases call with ⟨granted, -⟩ | refused
  · simp [granted, append]
  · simp [refused]

theorem refused_iff_eq :
    (definitions.answer call).2 = false ↔ (definitions.answer call).1 = definitions := by
  rcases definitions.answer_cases call with ⟨granted, -⟩ | refused
  · have longer : definitions.append call.statement ≠ definitions := by
      intro same
      have sameStatements := congrArg Definitions.statements same
      simp [append] at sameStatements
    simp [granted, longer]
  · simp [refused]

/-! ## Runs of calls -/

theorem extends_answerAll (calls : List Call) :
    (definitions.answerAll calls).Extends definitions := by
  induction calls generalizing definitions with
  | nil => exact .refl definitions
  | cons call calls induction => exact induction.trans (extends_answer call)

theorem answerAll_append (earlier later : List Call) :
    definitions.answerAll (earlier ++ later) = (definitions.answerAll earlier).answerAll later := by
  induction earlier generalizing definitions with
  | nil => rfl
  | cons call earlier induction => exact induction

/-- What granted calls build: each declares a new name or asserts a new formula. -/
abbrev BuiltOnce : Definitions → Prop :=
  Built (fun _ _ => True) fun definitions formula => .assert formula ∉ definitions.statements

theorem BuiltOnce.answered (built : definitions.BuiltOnce) (call : Call) :
    (definitions.answer call).1.BuiltOnce := by
  rcases definitions.answer_cases call with ⟨granted, which⟩ | refused
  · rw [granted]
    rcases which with ⟨declaration, isDeclaration, new⟩ | ⟨formula, isAssertion, new⟩
    · rw [isDeclaration]
      exact .declare built new trivial
    · rw [isAssertion]
      exact .assert built new
  · rwa [refused]

theorem BuiltOnce.answeredAll (built : definitions.BuiltOnce) (calls : List Call) :
    (definitions.answerAll calls).BuiltOnce := by
  induction calls generalizing definitions with
  | nil => exact built
  | cons call calls induction => exact induction (built.answered call)

theorem builtOnce_answerAll (calls : List Call) : (empty.answerAll calls).BuiltOnce :=
  BuiltOnce.answeredAll .empty calls

theorem BuiltOnce.nodup_assertions (built : definitions.BuiltOnce) :
    definitions.assertions.Nodup := by
  induction built with
  | empty => exact List.nodup_nil
  | declare _ _ _ induction => rwa [assertions_append_declare]
  | @assert definitions formula _ new induction =>
      rw [assertions_append_assert, List.nodup_append]
      refine ⟨induction, List.nodup_singleton _, fun other earlier own isOwn same => ?_⟩
      rw [List.mem_singleton] at isOwn
      exact new (mem_assertions_iff.mp (isOwn ▸ same ▸ earlier))

/-! ## Declarations -/

theorem lookup?_answer_declare (declaration : Declaration) (name : String) :
    (definitions.answer (.declare declaration)).1.lookup? name = (definitions.lookup? name).or
      (if declaration.name == name then some declaration else none) := by
  have same : (definitions.answer (.declare declaration)).1 = definitions.declare declaration := by
    rw [answer, declare, grant?]
    cases definitions.declare? declaration <;> rfl
  rw [same, lookup?_declare]

theorem lookup?_answer_of_assertion {formula : Formula} (isAssertion : call.statement = .assert formula)
    (name : String) : (definitions.answer call).1.lookup? name = definitions.lookup? name := by
  rcases definitions.answer_cases call with ⟨granted, -⟩ | refused
  · rw [granted, isAssertion, lookup?_append_assert]
  · rw [refused]

/-- A name stands for what the first call that declares it says. -/
theorem lookup?_answerAll (calls : List Call) (name : String) :
    (definitions.answerAll calls).lookup? name = (definitions.lookup? name).or
      ((calls.filterMap Call.declaration?).find? fun declaration => declaration.name == name) := by
  induction calls generalizing definitions with
  | nil => exact Option.or_none.symm
  | cons call calls induction =>
      refine (@induction (definitions.answer call).1).trans ?_
      cases call with
      | declare declaration =>
          have first : (Call.declare declaration :: calls).filterMap Call.declaration? =
              declaration :: calls.filterMap Call.declaration? := rfl
          rw [lookup?_answer_declare, Option.or_assoc, first, List.find?_cons]
          cases declaration.name == name <;> rfl
      | assert formula =>
          rw [lookup?_answer_of_assertion rfl, List.filterMap_cons_none rfl]
      | assertChecked formula =>
          rw [lookup?_answer_of_assertion rfl, List.filterMap_cons_none rfl]

theorem lookup?_eq_some_of_nodup (nodup : (definitions.declarations.map Declaration.name).Nodup)
    {declaration : Declaration} (declared : .declare declaration ∈ definitions.statements) :
    definitions.lookup? declaration.name = some declaration := by
  have listed := mem_declarations_iff.mpr declared
  cases found : definitions.lookup? declaration.name with
  | none => exact absurd (List.find?_eq_none.mp found declaration listed) (by simp)
  | some other =>
      have sameName : other.name = declaration.name := by simpa using List.find?_some found
      exact congrArg some
        (List.inj_on_of_nodup_map nodup (List.mem_of_find?_eq_some found) listed sameName)

/-- The statements that declare a name are as many as the table has entries for it. -/
theorem declarationCount_eq_count (name : String) :
    definitions.declarationCount name =
      (definitions.declarations.map Declaration.name).count name := by
  rw [List.count, List.countP_map, declarations_eq, List.countP_filterMap]
  refine List.countP_congr fun statement _ => ?_
  cases statement <;> rfl

theorem declarationCount_le_one (nodup : (definitions.declarations.map Declaration.name).Nodup)
    (name : String) : definitions.declarationCount name ≤ 1 := by
  rw [declarationCount_eq_count]
  exact List.nodup_iff_count_le_one.mp nodup name

end Definitions

/-! ## Checked formulas -/

theorem Declaration.domain?_eq_none_iff {declaration : Declaration} :
    declaration.domain? = none ↔
      ¬ (declaration.kind = .predicate ∨ declaration.kind = .relation) := by
  cases declaration <;> simp [domain?, kind]

/-- The name is declared as one that terms can have. -/
def Term.IsDeclaredIn (statements : List Statement) : Term → Prop
  | .constant name => ∃ declaration, .declare declaration ∈ statements ∧ declaration.name = name ∧
      (declaration.kind = .constant ∨ declaration.kind = .var)
  | .var _ => True

/-- The formula uses each symbol as the statements declare it: what is applied as a predicate or
relation with as many arguments, and constants as constants or variables. -/
inductive Formula.UsesDeclared (statements : List Statement) : Formula → Prop
  | truth : UsesDeclared statements .truth
  | falsity : UsesDeclared statements .falsity
  | atom {declaration : Declaration} {arguments : List Term} :
      .declare declaration ∈ statements →
      (declaration.kind = .predicate ∨ declaration.kind = .relation) →
      declaration.arity = arguments.length →
      (∀ argument ∈ arguments, argument.IsDeclaredIn statements) →
      UsesDeclared statements (.atom declaration.name arguments)
  | equal {left right : Term} : left.IsDeclaredIn statements → right.IsDeclaredIn statements →
      UsesDeclared statements (.equal left right)
  | not {operand : Formula} : UsesDeclared statements operand → UsesDeclared statements (.not operand)
  | and {parts : List Formula} : (∀ part ∈ parts, UsesDeclared statements part) →
      UsesDeclared statements (.and parts)
  | or {parts : List Formula} : (∀ part ∈ parts, UsesDeclared statements part) →
      UsesDeclared statements (.or parts)
  | implies {premise consequent : Formula} : UsesDeclared statements premise →
      UsesDeclared statements consequent → UsesDeclared statements (.implies premise consequent)
  | forAll {binders : List String} {body : Formula} : UsesDeclared statements body →
      UsesDeclared statements (.forAll binders body)
  | forSome {binders : List String} {body : Formula} : UsesDeclared statements body →
      UsesDeclared statements (.forSome binders body)

theorem Term.IsDeclaredIn.mono {statements more : List Statement} {term : Term}
    (declared : term.IsDeclaredIn statements) (within : statements ⊆ more) :
    term.IsDeclaredIn more := by
  cases term with
  | constant name =>
      obtain ⟨declaration, listed, named, isTerm⟩ := declared
      exact ⟨declaration, within listed, named, isTerm⟩
  | var name => trivial

theorem Formula.UsesDeclared.mono {statements more : List Statement} {formula : Formula}
    (uses : formula.UsesDeclared statements) (within : statements ⊆ more) :
    formula.UsesDeclared more := by
  induction uses with
  | truth => exact .truth
  | falsity => exact .falsity
  | atom declared applied arity terms =>
      exact .atom (within declared) applied arity fun argument listed =>
        (terms argument listed).mono within
  | equal left right => exact .equal (left.mono within) (right.mono within)
  | not _ induction => exact .not induction
  | and _ induction => exact .and induction
  | or _ induction => exact .or induction
  | implies _ _ premiseInduction consequentInduction =>
      exact .implies premiseInduction consequentInduction
  | forAll _ induction => exact .forAll induction
  | forSome _ induction => exact .forSome induction

namespace Definitions

variable {definitions : Definitions} {formula : Formula}

section Once

variable (nodup : (definitions.declarations.map Declaration.name).Nodup)
include nodup

theorem lookup?_eq_some_iff {name : String} {declaration : Declaration} :
    definitions.lookup? name = some declaration ↔
      .declare declaration ∈ definitions.statements ∧ declaration.name = name := by
  constructor
  · intro found
    exact ⟨mem_declarations_iff.mp (List.mem_of_find?_eq_some found),
      by simpa using List.find?_some found⟩
  · rintro ⟨declared, rfl⟩
    exact lookup?_eq_some_of_nodup nodup declared

theorem acceptsTerm_iff {term : Term} :
    definitions.acceptsTerm term = true ↔ term.IsDeclaredIn definitions.statements := by
  cases term with
  | var name => simp [acceptsTerm, Term.IsDeclaredIn]
  | constant name =>
      rw [acceptsTerm, Term.IsDeclaredIn, Option.isSome_bind, Option.any_eq_true]
      refine exists_congr fun declaration => ?_
      rw [lookup?_eq_some_iff nodup, and_assoc]
      cases declaration <;> simp [Declaration.sort?, Declaration.kind]

theorem acceptsAtom_iff {predicate : String} {arguments : List Term} :
    definitions.acceptsAtom predicate arguments = true ↔
      ∃ declaration, .declare declaration ∈ definitions.statements ∧ declaration.name = predicate ∧
        (declaration.kind = .predicate ∨ declaration.kind = .relation) ∧
        declaration.arity = arguments.length ∧
        ∀ argument ∈ arguments, argument.IsDeclaredIn definitions.statements := by
  have terms : arguments.all definitions.acceptsTerm = true ↔
      ∀ argument ∈ arguments, argument.IsDeclaredIn definitions.statements := by
    rw [List.all_eq_true]
    exact forall₂_congr fun argument _ => acceptsTerm_iff nodup
  unfold acceptsAtom
  split
  · next notApplied =>
      refine iff_of_false Bool.false_ne_true ?_
      rintro ⟨declaration, declared, rfl, isApplied, -⟩
      rw [lookup?_eq_some_of_nodup nodup declared, Option.bind_some,
        Declaration.domain?_eq_none_iff] at notApplied
      exact notApplied isApplied
  · next domain isApplied =>
      obtain ⟨declaration, found, isDomain⟩ := Option.bind_eq_some_iff.mp isApplied
      obtain ⟨declared, rfl⟩ := (lookup?_eq_some_iff nodup).mp found
      have arity : declaration.arity = domain.length := by rw [Declaration.arity, isDomain]; rfl
      have applied : declaration.kind = .predicate ∨ declaration.kind = .relation := by
        by_contra notApplied
        rw [Declaration.domain?_eq_none_iff.mpr notApplied] at isDomain
        cases isDomain
      rw [Bool.and_eq_true, beq_iff_eq, terms, ← arity]
      constructor
      · exact fun ⟨length, each⟩ => ⟨declaration, declared, rfl, applied, length, each⟩
      · rintro ⟨other, otherDeclared, sameName, -, length, each⟩
        have same : other = declaration := by
          have otherFound := lookup?_eq_some_of_nodup nodup otherDeclared
          rw [sameName, found] at otherFound
          exact (Option.some.inj otherFound).symm
        exact ⟨same ▸ length, each⟩

theorem accepts_iff_usesDeclared :
    definitions.accepts formula = true ↔ formula.UsesDeclared definitions.statements := by
  induction formula with
  | truth => exact iff_of_true rfl .truth
  | falsity => exact iff_of_true rfl .falsity
  | atom predicate arguments =>
      rw [accepts, acceptsAtom_iff nodup]
      constructor
      · rintro ⟨declaration, declared, rfl, applied, arity, terms⟩
        exact .atom declared applied arity terms
      · rintro (_ | _ | ⟨declared, applied, arity, terms⟩)
        exact ⟨_, declared, rfl, applied, arity, terms⟩
  | equal left right =>
      rw [accepts, Bool.and_eq_true, acceptsTerm_iff nodup, acceptsTerm_iff nodup]
      exact ⟨fun both => .equal both.1 both.2, fun (.equal left right) => ⟨left, right⟩⟩
  | not operand induction =>
      rw [accepts, induction]
      exact ⟨.not, fun (.not operand) => operand⟩
  | and parts induction =>
      rw [accepts, acceptsParts_eq_all, List.all_eq_true, forall₂_congr induction]
      exact ⟨.and, fun (.and parts) => parts⟩
  | or parts induction =>
      rw [accepts, acceptsParts_eq_all, List.all_eq_true, forall₂_congr induction]
      exact ⟨.or, fun (.or parts) => parts⟩
  | implies premise consequent premiseInduction consequentInduction =>
      rw [accepts, Bool.and_eq_true, premiseInduction, consequentInduction]
      exact ⟨fun both => .implies both.1 both.2,
        fun (.implies premise consequent) => ⟨premise, consequent⟩⟩
  | forAll binders body induction =>
      rw [accepts, induction]
      exact ⟨.forAll, fun (.forAll body) => body⟩
  | forSome binders body induction =>
      rw [accepts, induction]
      exact ⟨.forSome, fun (.forSome body) => body⟩

end Once

theorem accepts_of_granted (granted : (definitions.answer (.assertChecked formula)).2 = true) :
    definitions.accepts formula = true := by
  unfold answer at granted
  split at granted
  · next later isGranted => exact (assertChecked?_eq_some_iff.mp isGranted).1
  · cases granted

/-! ## After any calls -/

/-- What holds of new definitions after these calls. -/
structure ConsistentAfter (calls : List Call) : Prop where
  declarations_eq : (empty.answerAll calls).declarations =
    (empty.answerAll calls).statements.filterMap Statement.declaration?
  assertions_eq : (empty.answerAll calls).assertions =
    (empty.answerAll calls).statements.filterMap Statement.assertion?
  declaredOnce : ∀ name, (empty.answerAll calls).declarationCount name ≤ 1
  lookup?_eq_first : ∀ name, (empty.answerAll calls).lookup? name =
    (calls.filterMap Call.declaration?).find? fun declaration => declaration.name == name
  lookup?_eq_some : ∀ declaration, .declare declaration ∈ (empty.answerAll calls).statements →
    (empty.answerAll calls).lookup? declaration.name = some declaration ∧
      (empty.answerAll calls).kind? declaration.name = some declaration.kind
  assertedOnce : (empty.answerAll calls).assertions.Nodup
  grows : ∀ earlier later, calls = earlier ++ later →
    (empty.answerAll calls).Extends (empty.answerAll earlier)
  granted_iff : ∀ call, ((empty.answerAll calls).answer call).2 = true ↔
    ((empty.answerAll calls).answer call).1.statements =
      (empty.answerAll calls).statements ++ [call.statement]
  refused_iff : ∀ call, ((empty.answerAll calls).answer call).2 = false ↔
    ((empty.answerAll calls).answer call).1 = empty.answerAll calls
  checked : ∀ earlier formula later, calls = earlier ++ .assertChecked formula :: later →
    ((empty.answerAll earlier).answer (.assertChecked formula)).2 = true →
    formula.UsesDeclared (empty.answerAll earlier).statements ∧
      (empty.answerAll calls).accepts formula = true

theorem nodup_names_answerAll (calls : List Call) :
    ((empty.answerAll calls).declarations.map Declaration.name).Nodup :=
  (builtOnce_answerAll calls).nodup_names

/-- A formula that passed the check uses what was declared before it, and passes it ever after. -/
theorem usesDeclared_of_granted {earlier later : List Call}
    (granted : ((empty.answerAll earlier).answer (.assertChecked formula)).2 = true) :
    formula.UsesDeclared (empty.answerAll earlier).statements ∧
      (empty.answerAll (earlier ++ .assertChecked formula :: later)).accepts formula = true := by
  have uses : formula.UsesDeclared (empty.answerAll earlier).statements :=
    (accepts_iff_usesDeclared (nodup_names_answerAll earlier)).mp (accepts_of_granted granted)
  refine ⟨uses, (accepts_iff_usesDeclared (nodup_names_answerAll _)).mpr (uses.mono ?_)⟩
  rw [answerAll_append]
  exact (extends_answerAll _).subset

/-- After any calls, the table and the set are in step with the statements; names are declared and
formulas asserted once, by the first call that does so; statements were added at the end only, by the
calls that were granted; and what passed the check uses only what was declared before it. -/
theorem consistentAfter (calls : List Call) : ConsistentAfter calls where
  declarations_eq := (empty.answerAll calls).declarations_eq
  assertions_eq := (empty.answerAll calls).assertions_eq
  declaredOnce := declarationCount_le_one (nodup_names_answerAll calls)
  lookup?_eq_first name := (lookup?_answerAll calls name).trans Option.none_or
  lookup?_eq_some declaration declared := by
    have found := lookup?_eq_some_of_nodup (nodup_names_answerAll calls) declared
    exact ⟨found, by rw [kind?, found, Option.map_some]⟩
  assertedOnce := (builtOnce_answerAll calls).nodup_assertions
  grows := by
    rintro earlier later rfl
    rw [answerAll_append]
    exact extends_answerAll later
  granted_iff _ := granted_iff_statements_eq
  refused_iff _ := refused_iff_eq
  checked := by
    rintro earlier formula later rfl granted
    exact usesDeclared_of_granted granted

/-- A second declaration of a name is refused whatever its kind, and so is an assertion that does not fit
the first. -/
example : (empty.answerAll [.declare (.property "Equal"), .declare (.link "Equal"),
      .declare (.object "a"), .assertChecked (.link "Equal" "a" "a"),
      .assertChecked (.property "Equal" "a"), .assert (.property "Equal" "a")]).statements =
    [.declare (.property "Equal"), .declare (.object "a"), .assert (.property "Equal" "a")] := by
  decide

end Definitions

end Ergo
