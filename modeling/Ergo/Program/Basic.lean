import Ergo.Formula.Printer

/-!
Programs: an ordered list of declarations and assertions, and a conclusion.
-/

namespace Ergo

/-- The sort of whatever is given no other sort. -/
def objectSort : String := "Object"

inductive Declaration
  | sort (name : String)
  | constant (name sort : String)
  | var (name sort : String)
  | predicate (name : String) (domain : List String)
  | relation (name : String) (domain : List String)
  deriving DecidableEq, Repr

inductive SymbolKind
  | sort
  | constant
  | var
  | predicate
  | relation
  deriving DecidableEq, Repr

namespace SymbolKind

def keyword : SymbolKind → String
  | .sort => "declare-sort"
  | .constant => "declare-constant"
  | .var => "declare-variable"
  | .predicate => "declare-predicate"
  | .relation => "declare-relation"

def all : List SymbolKind :=
  [.sort, .constant, .var, .predicate, .relation]

def ofKeyword? (word : String) : Option SymbolKind :=
  all.find? fun kind => kind.keyword == word

@[simp] theorem ofKeyword?_keyword (kind : SymbolKind) :
    ofKeyword? kind.keyword = some kind := by
  cases kind <;> decide

end SymbolKind

namespace Declaration

def name : Declaration → String
  | .sort name => name
  | .constant name _ => name
  | .var name _ => name
  | .predicate name _ => name
  | .relation name _ => name

def kind : Declaration → SymbolKind
  | .sort _ => .sort
  | .constant _ _ => .constant
  | .var _ _ => .var
  | .predicate _ _ => .predicate
  | .relation _ _ => .relation

def domain? : Declaration → Option (List String)
  | .predicate _ domain => some domain
  | .relation _ domain => some domain
  | _ => none

def sort? : Declaration → Option String
  | .constant _ sortName => some sortName
  | .var _ sortName => some sortName
  | _ => none

/-- The sorts that the declaration of a symbol names. -/
def namedSorts (declaration : Declaration) : List String :=
  declaration.sort?.toList ++ declaration.domain?.getD []

def arity (declaration : Declaration) : Nat :=
  (declaration.domain?.getD []).length

def renderSorts : Declaration → String
  | .sort _ => ""
  | .constant _ sortName => " " ++ sortName
  | .var _ sortName => " " ++ sortName
  | .predicate _ domain => " " ++ " ".intercalate domain
  | .relation _ domain => " " ++ " ".intercalate domain

def render (declaration : Declaration) : String :=
  declaration.kind.keyword ++ " " ++ declaration.name ++ declaration.renderSorts

end Declaration

inductive Statement
  | declare (declaration : Declaration)
  | assert (formula : Formula)
  deriving DecidableEq, Repr

namespace Statement

def declaration? : Statement → Option Declaration
  | .declare declaration => some declaration
  | .assert _ => none

def assertion? : Statement → Option Formula
  | .declare _ => none
  | .assert formula => some formula

def render : Statement → String
  | .declare declaration => declaration.render
  | .assert formula => "assert " ++ formula.render

end Statement

structure Program where
  statements : List Statement
  conclusion : Formula
  deriving DecidableEq, Repr

namespace Program

def declarations (program : Program) : List Declaration :=
  program.statements.filterMap Statement.declaration?

def assertions (program : Program) : List Formula :=
  program.statements.filterMap Statement.assertion?

def premiseLines (program : Program) : List String :=
  program.statements.map Statement.render

def render (program : Program) : String :=
  String.join (program.premiseLines.map (· ++ "\n")) ++ "conclusion " ++
    program.conclusion.render

/-- Occurrences of names in assertions before any declaration introduced them. -/
def undeclaredUses (declared : List String) : List Statement → List String
  | [] => []
  | .declare declaration :: later => undeclaredUses (declaration.name :: declared) later
  | .assert formula :: later =>
      formula.symbols.filter (fun name => !declared.contains name) ++
        undeclaredUses declared later

/-- Names that an assertion or the conclusion uses before they are declared, in order of first
such use. -/
def forwardReferences (program : Program) : List String :=
  (NameSet.ofList (undeclaredUses [] (program.statements ++ [.assert program.conclusion]))).names

end Program

end Ergo
