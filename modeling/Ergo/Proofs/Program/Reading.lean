import Ergo.Proofs.Program.RoundTrip

/-!
What is read from texts can be written. Whatever text a formula, a statement or a program was read from,
it is read again from its own written form (`written_form_is_read_back`).
-/

namespace Ergo

open Ergo.Language Ergo.Text

/-- A declaration that is read from words has the first as its name, and sorts from among the others
or `Object`. -/
theorem Declaration.parts_of_ofWords {kind : SymbolKind} {offset : Nat} {name : String}
    {sorts : List String} {declaration : Declaration}
    (read : ofWords kind offset name sorts = .ok declaration) :
    declaration.name = name ∧ declaration.namedSorts ⊆ objectSort :: sorts ∧
      declaration.domain? ≠ some [] := by
  -- No kind asks for more than whether there is no sort, one sort or more of them.
  cases kind <;> obtain _ | ⟨first, _ | ⟨second, later⟩⟩ := sorts <;> cases read <;>
    simp [Declaration.name, namedSorts, sort?, domain?, domainOr]

theorem Declaration.isWritten_of_ofWords {kind : SymbolKind} {offset : Nat} {name : String}
    {sorts : List String} {declaration : Declaration}
    (read : ofWords kind offset name sorts = .ok declaration) (named : IsIdentifier name)
    (sorted : ∀ sortName ∈ sorts, IsIdentifier sortName) : declaration.IsWritten := by
  obtain ⟨rfl, sortsWithin, takesSome⟩ := parts_of_ofWords read
  have usable : ∀ sortName ∈ objectSort :: sorts, IsIdentifier sortName :=
    List.forall_mem_cons.mpr ⟨by decide, sorted⟩
  exact ⟨named, fun sortName member => usable sortName (sortsWithin member), takesSome⟩

theorem Statement.isWritten_of_parse {text : String} {statement : Statement}
    (read : Statement.parse text = .ok statement) : statement.IsWritten := by
  rw [Statement.parse, ofParts] at read
  dsimp only at read
  split at read
  · split at read
    · next parsed =>
        cases read
        exact Formula.isWellScoped_of_parse parsed
    · cases read
  · split at read
    · cases read
    · cases read
    · next name sorts identifiers listed =>
        split at read
        · cases read
        · obtain ⟨declaration, declared, rfl⟩ := map_eq_ok_iff.mp read
          rw [listed, List.find?_eq_none] at identifiers
          have identifier : ∀ word ∈ name :: sorts, IsIdentifier (String.ofList word) := by
            intro word member
            simpa [IsIdentifier] using identifiers word member
          obtain ⟨named, sorted⟩ := List.forall_mem_cons.mp identifier
          exact Declaration.isWritten_of_ofWords declared named (List.forall_mem_map.mpr sorted)

theorem Program.isWritten_of_parse {premises : List String} {conclusion : String} {program : Program}
    (read : Program.parse premises conclusion = .ok program) : program.IsWritten := by
  obtain ⟨statements, statementsRead, conclusionRead⟩ := bind_eq_ok_iff.mp read
  split at conclusionRead
  · cases conclusionRead
  · next parsed =>
      cases conclusionRead
      refine ⟨fun statement listed => ?_, Formula.isWellScoped_of_parse parsed⟩
      obtain ⟨text, -, statementRead⟩ :=
        exists_mem_left_of_forall₂ (parseStatements_eq_ok_iff.mp statementsRead) listed
      exact Statement.isWritten_of_parse statementRead

/-- Formulas that are read are well-scoped over the identifiers without a meaning of their own, and every
such formula is read from its written form. Statements and programs that are read are read again, the
same, from theirs. -/
theorem written_form_is_read_back :
    (∀ text formula, Formula.parse text = .ok formula →
        formula.WellScoped (fun name => IsIdentifier name ∧ IsUnreserved name) []) ∧
      (∀ formula : Formula,
        formula.WellScoped (fun name => IsIdentifier name ∧ IsUnreserved name) [] →
        Formula.parse formula.render = .ok formula) ∧
      (∀ text statement, Statement.parse text = .ok statement →
        Statement.parse statement.render = .ok statement) ∧
      ∀ premises conclusion program, Program.parse premises conclusion = .ok program →
        Program.parse program.premiseLines program.conclusion.render = .ok program :=
  ⟨fun _ _ read => Formula.isWellScoped_of_parse read,
    fun _ wellScoped => Formula.parse_render wellScoped,
    fun _ _ read => Statement.parse_render (Statement.isWritten_of_parse read),
    fun _ _ _ read => (Program.isWritten_of_parse read).parse⟩

/-- Nobody is Bob, over things of no other sort. -/
def nobodyIsBob : Formula :=
  .forAll ["x"] (.not (.equal (.var "x") (.constant "bob")))

def likingOfBob : Program :=
  { statements :=
      [.declare (.relation "Likes" [objectSort, objectSort]), .assert nobodyIsBob]
    conclusion := .atom "Likes" [.constant "ann", .constant "bob"] }

/-- Blanks, parentheses, the sign of inequality and sorts that are left out are not written again. -/
theorem likingOfBob_is_read_back :
    (Formula.parse "ForAll( x,(x) != bob)" = .ok nobodyIsBob ∧
      nobodyIsBob.WellScoped (fun name => IsIdentifier name ∧ IsUnreserved name) [] ∧
      Formula.parse nobodyIsBob.render = .ok nobodyIsBob) ∧
    (Statement.parse " assert\tForAll(x, x != bob)" = .ok (.assert nobodyIsBob) ∧
      Statement.parse (Statement.assert nobodyIsBob).render = .ok (.assert nobodyIsBob)) ∧
    Program.parse ["declare-relation  Likes ", " assert\tForAll(x, x != bob)"] "Likes(ann,(bob))" =
        .ok likingOfBob ∧
      Program.parse likingOfBob.premiseLines likingOfBob.conclusion.render = .ok likingOfBob := by
  obtain ⟨wellScopes, formulas, statements, programs⟩ := written_form_is_read_back
  have formulaRead : Formula.parse "ForAll( x,(x) != bob)" = .ok nobodyIsBob := by decide +kernel
  have statementRead : Statement.parse " assert\tForAll(x, x != bob)" = .ok (.assert nobodyIsBob) := by
    decide +kernel
  have programRead : Program.parse ["declare-relation  Likes ", " assert\tForAll(x, x != bob)"]
      "Likes(ann,(bob))" = .ok likingOfBob := by
    decide +kernel
  have wellScoped := wellScopes _ _ formulaRead
  exact ⟨⟨formulaRead, wellScoped, formulas _ wellScoped⟩,
    ⟨statementRead, statements _ _ statementRead⟩, programRead, programs _ _ _ programRead⟩

end Ergo
