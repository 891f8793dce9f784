import Ergo.Program.Basic

/-!
The statements of a program while it is put together, with the table of what they declare and the set
of what they assert. A name is declared once, by its first declaration, and a formula is asserted once.
-/

namespace Ergo

namespace Declaration

def object (name : String) : Declaration :=
  .constant name objectSort

def objectVariable (name : String) : Declaration :=
  .var name objectSort

def property (name : String) : Declaration :=
  .predicate name [objectSort]

def link (name : String) : Declaration :=
  .relation name [objectSort, objectSort]

@[simp] theorem name_object (name : String) : (object name).name = name := rfl

@[simp] theorem name_objectVariable (name : String) : (objectVariable name).name = name := rfl

@[simp] theorem name_property (name : String) : (property name).name = name := rfl

@[simp] theorem name_link (name : String) : (link name).name = name := rfl

end Declaration

/-- Statements, with what they declare and what they assert at hand for look-ups. -/
structure Definitions where
  declarations : List Declaration
  assertions : List Formula
  statements : List Statement
  declarations_eq : declarations = statements.filterMap Statement.declaration?
  assertions_eq : assertions = statements.filterMap Statement.assertion?
  deriving DecidableEq, Repr

namespace Definitions

def ofStatements (statements : List Statement) : Definitions where
  declarations := statements.filterMap Statement.declaration?
  assertions := statements.filterMap Statement.assertion?
  statements := statements
  declarations_eq := rfl
  assertions_eq := rfl

def empty : Definitions where
  declarations := []
  assertions := []
  statements := []
  declarations_eq := rfl
  assertions_eq := rfl

def lookup? (definitions : Definitions) (name : String) : Option Declaration :=
  definitions.declarations.find? fun declaration => declaration.name == name

def kind? (definitions : Definitions) (name : String) : Option SymbolKind :=
  (definitions.lookup? name).map Declaration.kind

/-- How many statements declare the name. -/
def declarationCount (definitions : Definitions) (name : String) : Nat :=
  definitions.statements.countP fun statement =>
    statement.declaration?.any fun declaration => declaration.name == name

/-- Adds a statement at the end, and what it declares or asserts to the table or to the set. -/
def append (definitions : Definitions) (statement : Statement) : Definitions where
  declarations := definitions.declarations ++ statement.declaration?.toList
  assertions := definitions.assertions ++ statement.assertion?.toList
  statements := definitions.statements ++ [statement]
  declarations_eq := by
    rw [List.filterMap_append, ← definitions.declarations_eq]
    cases statement <;> rfl
  assertions_eq := by
    rw [List.filterMap_append, ← definitions.assertions_eq]
    cases statement <;> rfl

/-! ## Adding -/

/-- Adds a declaration, unless its name is declared already. -/
def declare? (definitions : Definitions) (declaration : Declaration) : Option Definitions :=
  if (definitions.lookup? declaration.name).isSome then none
  else some (definitions.append (.declare declaration))

def declare (definitions : Definitions) (declaration : Declaration) : Definitions :=
  (definitions.declare? declaration).getD definitions

def declareAll (definitions : Definitions) (declarations : List Declaration) : Definitions :=
  declarations.foldl declare definitions

def assert? (definitions : Definitions) (formula : Formula) : Option Definitions :=
  if definitions.assertions.contains formula then none
  else some (definitions.append (.assert formula))

def assert (definitions : Definitions) (formula : Formula) : Definitions :=
  (definitions.assert? formula).getD definitions

def assertAll (definitions : Definitions) (formulas : List Formula) : Definitions :=
  formulas.foldl assert definitions

/-! ## Checking -/

/-- Whether a term can be used: a constant must be declared as a constant or variable. -/
def acceptsTerm (definitions : Definitions) : Term → Bool
  | .constant name => ((definitions.lookup? name).bind Declaration.sort?).isSome
  | .var _ => true

/-- Whether a symbol is declared with as many arguments, each of which can be used. -/
def acceptsAtom (definitions : Definitions) (predicate : String) (arguments : List Term) :
    Bool :=
  match (definitions.lookup? predicate).bind Declaration.domain? with
  | none => false
  | some domain => domain.length == arguments.length && arguments.all definitions.acceptsTerm

mutual
def accepts (definitions : Definitions) : Formula → Bool
  | .truth => true
  | .falsity => true
  | .atom predicate arguments => definitions.acceptsAtom predicate arguments
  | .equal left right => definitions.acceptsTerm left && definitions.acceptsTerm right
  | .not operand => definitions.accepts operand
  | .and parts => definitions.acceptsParts parts
  | .or parts => definitions.acceptsParts parts
  | .implies premise consequent =>
      definitions.accepts premise && definitions.accepts consequent
  | .forAll _ body => definitions.accepts body
  | .forSome _ body => definitions.accepts body

def acceptsParts (definitions : Definitions) : List Formula → Bool
  | [] => true
  | part :: parts => definitions.accepts part && definitions.acceptsParts parts
end

@[simp] theorem acceptsParts_eq_all (definitions : Definitions) (parts : List Formula) :
    definitions.acceptsParts parts = parts.all definitions.accepts := by
  induction parts with
  | nil => simp [acceptsParts]
  | cons part parts induction => simp [acceptsParts, induction]

/-- Adds an assertion that fits the declarations, unless it is there already. -/
def assertChecked? (definitions : Definitions) (formula : Formula) : Option Definitions :=
  if definitions.accepts formula then definitions.assert? formula else none

end Definitions

/-! ## Translations -/

/-- What a sentence adds to a program: declarations, and then an assertion if there is one. -/
structure Translation where
  declarations : List Declaration
  assertion? : Option Formula
  deriving DecidableEq, Repr

namespace Translation

def nothing : Translation := { declarations := [], assertion? := none }

def asserting (declarations : List Declaration) (formula : Formula) : Translation :=
  { declarations := declarations, assertion? := some formula }

end Translation

/-- The definitions after a translation, and whether an assertion was added. -/
def Definitions.apply (definitions : Definitions) (translation : Translation) :
    Definitions × Bool :=
  let declared := definitions.declareAll translation.declarations
  match translation.assertion?.bind declared.assertChecked? with
  | some definitions => (definitions, true)
  | none => (declared, false)

def Definitions.applyAll (definitions : Definitions) (translations : List Translation) :
    Definitions :=
  translations.foldl (fun definitions translation => (definitions.apply translation).1)
    definitions

end Ergo
