import Ergo.Json.Basic
import Ergo.Program.Basic

/-!
Formulas and statements as JSON. A value with parts is an object whose only member is named for the
kind of value; the parts of a quantifier, an atom or a declaration are fields.
-/

namespace Ergo

namespace Json

def ofCase (kind : String) (content : Json) : Json :=
  record [(kind, content)]

theorem sizeOf_lt_of_member? {members : List (Option String × Json)} {name : String}
    {value : Json} (found : member? members name = some value) :
    sizeOf value < sizeOf members := by
  unfold member? at found
  split at found
  next member single =>
    have inside : member ∈ members :=
      (List.mem_filter.mp (single ▸ List.mem_singleton_self member)).1
    have smaller := List.sizeOf_lt_of_mem inside
    obtain ⟨key, content⟩ := member
    simp only [Option.some.injEq] at found
    subst found
    simp only [Prod.mk.sizeOf_spec] at smaller
    omega
  next => contradiction

theorem sizeOf_lt_of_mem_mapM_member? {members : List (Option String × Json)}
    {names : List String} {values : List Json}
    (found : names.mapM (member? members) = some values) {value : Json}
    (inside : value ∈ values) : sizeOf value < sizeOf members := by
  induction names generalizing values with
  | nil =>
      simp only [List.mapM_nil, pure, Option.some.injEq] at found
      subst found
      contradiction
  | cons name names induction =>
      simp only [List.mapM_cons, bind, Option.bind_eq_some_iff, pure, Option.some.injEq] at found
      obtain ⟨first, firstFound, others, othersFound, rfl⟩ := found
      rcases List.mem_cons.mp inside with rfl | inside
      · exact sizeOf_lt_of_member? firstFound
      · exact induction othersFound inside

/-- Fields are smaller than the value that holds them. -/
theorem sizeOf_lt_of_mem_fields? {names : List String} {json : Json} {values : List Json}
    (found : json.fields? names = some values) {value : Json} (inside : value ∈ values) :
    sizeOf value < sizeOf json := by
  unfold fields? at found
  split at found
  · split at found
    · cases found
      have := List.sizeOf_lt_of_mem inside
      simp only [Json.array.sizeOf_spec]
      omega
    · contradiction
  · split at found
    · have := sizeOf_lt_of_mem_mapM_member? found inside
      simp only [Json.object.sizeOf_spec]
      omega
    · contradiction
  · contradiction

end Json

/-! ## Formulas -/

def Term.toJson : Term → Json
  | .constant name => .ofCase "Constant" (.text name)
  | .var name => .ofCase "Variable" (.text name)

def Term.ofJson? : Json → Option Term
  | .object [(some "Constant", .string name?)] => name?.map .constant
  | .object [(some "Variable", .string name?)] => name?.map .var
  | _ => none

namespace Formula

def quantifierJson (binders : List String) (body : Json) : Json :=
  .record [("vars", .texts binders), ("body", body)]

mutual
def toJson : Formula → Json
  | .truth => .text "True"
  | .falsity => .text "False"
  | .atom predicate arguments =>
      .ofCase "Atom" (.record [("predicate", .text predicate),
        ("args", .array (arguments.map Term.toJson))])
  | .equal left right => .ofCase "Equal" (.array [left.toJson, right.toJson])
  | .not operand => .ofCase "Not" operand.toJson
  | .and parts => .ofCase "And" (.array (partsToJson parts))
  | .or parts => .ofCase "Or" (.array (partsToJson parts))
  | .implies premise consequent =>
      .ofCase "Implies" (.array [premise.toJson, consequent.toJson])
  | .forAll binders body => .ofCase "ForAll" (quantifierJson binders body.toJson)
  | .forSome binders body => .ofCase "Exists" (quantifierJson binders body.toJson)

def partsToJson : List Formula → List Json
  | [] => []
  | part :: parts => part.toJson :: partsToJson parts
end

def atomOfJson? (content : Json) : Option Formula :=
  match content.fields? ["predicate", "args"] with
  | some [predicate, arguments] => do
      let predicate ← predicate.text?
      let arguments ← (← arguments.items?).mapM Term.ofJson?
      return .atom predicate arguments
  | _ => none

mutual
def ofJson? (json : Json) : Option Formula :=
  match json with
  | .string (some "True") => some .truth
  | .string (some "False") => some .falsity
  | .object [(some "True", .null)] => some .truth
  | .object [(some "False", .null)] => some .falsity
  | .object [(some "Atom", content)] => atomOfJson? content
  | .object [(some "Equal", .array [left, right])] => do
      return .equal (← Term.ofJson? left) (← Term.ofJson? right)
  | .object [(some "Not", operand)] => (ofJson? operand).map .not
  | .object [(some "And", .array parts)] => (partsOfJson? parts).map .and
  | .object [(some "Or", .array parts)] => (partsOfJson? parts).map .or
  | .object [(some "Implies", .array [premise, consequent])] => do
      return .implies (← ofJson? premise) (← ofJson? consequent)
  | .object [(some "ForAll", content)] =>
      (quantifierOfJson? content).map fun (binders, body) => .forAll binders body
  | .object [(some "Exists", content)] =>
      (quantifierOfJson? content).map fun (binders, body) => .forSome binders body
  | _ => none
termination_by sizeOf json

def partsOfJson? (parts : List Json) : Option (List Formula) :=
  match parts with
  | [] => some []
  | part :: parts => do return (← ofJson? part) :: (← partsOfJson? parts)
termination_by sizeOf parts

def quantifierOfJson? (content : Json) : Option (List String × Formula) :=
  match found : content.fields? ["vars", "body"] with
  | some [binders, body] =>
      have : sizeOf body < sizeOf content := Json.sizeOf_lt_of_mem_fields? found (by simp)
      do return (← binders.texts?, ← ofJson? body)
  | _ => none
termination_by sizeOf content
end

end Formula

/-! ## Statements -/

namespace Declaration

def sortedJson (name sortName : String) : Json :=
  .record [("name", .text name), ("sort", .text sortName)]

def appliedJson (name : String) (domain : List String) : Json :=
  .record [("name", .text name), ("domain", .texts domain)]

def toJson : Declaration → Json
  | .sort name => .ofCase "Sort" (.text name)
  | .constant name sortName => .ofCase "Constant" (sortedJson name sortName)
  | .var name sortName => .ofCase "Variable" (sortedJson name sortName)
  | .predicate name domain => .ofCase "Predicate" (appliedJson name domain)
  | .relation name domain => .ofCase "Relation" (appliedJson name domain)

def sortedOfJson? (content : Json) : Option (String × String) :=
  match content.fields? ["name", "sort"] with
  | some [name, sortName] => do return (← name.text?, ← sortName.text?)
  | _ => none

def appliedOfJson? (content : Json) : Option (String × List String) :=
  match content.fields? ["name", "domain"] with
  | some [name, domain] => do return (← name.text?, ← domain.texts?)
  | _ => none

def ofJson? : Json → Option Declaration
  | .object [(some "Sort", name)] => name.text?.map .sort
  | .object [(some "Constant", content)] =>
      (sortedOfJson? content).map fun (name, sortName) => .constant name sortName
  | .object [(some "Variable", content)] =>
      (sortedOfJson? content).map fun (name, sortName) => .var name sortName
  | .object [(some "Predicate", content)] =>
      (appliedOfJson? content).map fun (name, domain) => .predicate name domain
  | .object [(some "Relation", content)] =>
      (appliedOfJson? content).map fun (name, domain) => .relation name domain
  | _ => none

end Declaration

namespace Statement

def toJson : Statement → Json
  | .declare declaration => .ofCase "Declare" declaration.toJson
  | .assert formula => .ofCase "Assert" formula.toJson

def ofJson? : Json → Option Statement
  | .object [(some "Declare", content)] => (Declaration.ofJson? content).map .declare
  | .object [(some "Assert", content)] => (Formula.ofJson? content).map .assert
  | _ => none

end Statement

def Program.ofJson? (json : Json) : Option Program :=
  match json.fields? ["statements", "conclusion"] with
  | some [statements, conclusion] => do
      let statements ← (← statements.items?).mapM Statement.ofJson?
      let conclusion ← Formula.ofJson? conclusion
      return { statements, conclusion }
  | _ => none

end Ergo
