import Ergo.Proofs.Argument.Compilation

/-!
Compiled programs and their written form. A compiled program is read back from its text exactly if no
name that its formulas use is reserved.
-/

namespace Ergo

open Ergo.Language

namespace Program.IsOrdered

variable {program : Program}

theorem isIdentifier_of_declares (ordered : program.IsOrdered) {before after : List Statement}
    (split : program.statements ++ [.assert program.conclusion] = before ++ after) {name : String}
    (declares : Declares before name) : IsIdentifier name := by
  obtain ⟨declaration, declared, rfl⟩ := declares
  have listed : .declare declaration ∈ program.statements ++ [.assert program.conclusion] := by
    rw [split]
    exact List.mem_append_left _ declared
  rcases List.mem_append.mp listed with stated | concluded
  · obtain ⟨_, written⟩ := ordered.built.exists_mayDeclare stated
    exact written.name
  · cases List.mem_singleton.mp concluded

/-- The formulas of an ordered program are over identifiers. They can be written if none is reserved. -/
theorem wellScoped (ordered : program.IsOrdered) {formula : Formula}
    (stated : .assert formula ∈ program.statements ++ [.assert program.conclusion])
    (unreserved : ∀ name ∈ formula.symbols, IsUnreserved name) :
    formula.WellScoped (fun name => IsIdentifier name ∧ IsUnreserved name) [] := by
  obtain ⟨before, after, split⟩ := List.append_of_mem stated
  refine (ordered.covers_and_isScoped split).2.rescope (fun name occurs => ?_) (by simp)
  have used := Formula.mem_symbols.mpr occurs
  exact ⟨ordered.isIdentifier_of_declares split (ordered.declares split used), unreserved name used⟩

theorem isWritten (ordered : program.IsOrdered)
    (unreserved : ∀ formula ∈ program.assertions ++ [program.conclusion],
      ∀ name ∈ formula.symbols, IsUnreserved name) : program.IsWritten := by
  constructor
  · intro statement listed
    cases statement with
    | declare declaration =>
        obtain ⟨_, written⟩ := ordered.built.exists_mayDeclare listed
        exact written
    | assert formula =>
        have asserted : formula ∈ program.assertions := List.mem_filterMap.mpr ⟨_, listed, rfl⟩
        exact ordered.wellScoped (List.mem_append_left _ listed)
          (unreserved formula (List.mem_append_left _ asserted))
  · exact ordered.wellScoped (by simp) (unreserved _ (by simp))

end Program.IsOrdered

namespace Argument.Compiler

variable {compiler : Compiler} {premises : List String} {goal : String} {compiled : Compiled}

/-- The lines of a compiled program are read back as that program if and only if no formula of it uses a
reserved name. The prover then gives the lines the answer that it gives the program. -/
theorem parse_iff_of_compile (accepted : compiler.compile premises goal = .ok compiled) :
    (Program.parse compiled.program.premiseLines compiled.program.conclusion.render =
        .ok compiled.program ↔
      ∀ formula ∈ compiled.program.assertions ++ [compiled.program.conclusion],
        ∀ name ∈ formula.symbols, isReserved name = false) ∧
    ((∀ formula ∈ compiled.program.assertions ++ [compiled.program.conclusion],
        ∀ name ∈ formula.symbols, isReserved name = false) →
      ∀ solver limit, (Program.parse compiled.program.premiseLines
        compiled.program.conclusion.render >>= fun program => program.prove solver limit) =
          compiled.program.prove solver limit) := by
  have read := fun unreserved => ((isOrdered_of_compile accepted).isWritten unreserved).parse
  refine ⟨⟨fun parsed formula stated name used => ?_, read⟩, fun unreserved solver limit => ?_⟩
  · exact (Program.wellScoped_of_parse parsed stated).usable_symbol (Formula.mem_symbols.mp used)
  · rw [read unreserved]
    rfl

theorem tomIsWise_parses :
    (ofSettings .default).compile ["All cats are mortal.", "Tom is wise."] "Tom is wise." =
        .ok tomIsWise ∧
      Program.parse tomIsWise.program.premiseLines tomIsWise.program.conclusion.render =
        .ok tomIsWise.program ∧
      ∀ solver limit, (Program.parse tomIsWise.program.premiseLines
        tomIsWise.program.conclusion.render >>= fun program => program.prove solver limit) =
          tomIsWise.program.prove solver limit := by
  have parses := parse_iff_of_compile compile_tomIsWise
  have unreserved : ∀ formula ∈ tomIsWise.program.assertions ++ [tomIsWise.program.conclusion],
      ∀ name ∈ formula.symbols, isReserved name = false := by
    decide
  exact ⟨compile_tomIsWise, parses.1.mpr unreserved, parses.2 unreserved⟩

/-- What is compiled from `Tom is true.`, as the premise and as the conclusion. -/
def tomIsTrue : Compiled :=
  { program :=
      { statements :=
          [.declare (.sort objectSort), .declare (.object "tom"), .declare (.property "True"),
            .assert (.property "True" "tom")]
        conclusion := .property "True" "tom" }
    triples := []
    case? := none }

/-- A property that is called `true` takes a reserved name, so that the text of a compiled program is
not that of a program. -/
theorem not_parse_of_compile :
    ¬ ∀ settings premises goal compiled, (ofSettings settings).compile premises goal = .ok compiled →
        Program.parse compiled.program.premiseLines compiled.program.conclusion.render =
          .ok compiled.program := by
  intro claimed
  have compiles : (ofSettings .default).compile ["Tom is true."] "Tom is true." = .ok tomIsTrue := by
    decide +kernel
  have parsed := claimed _ _ _ _ compiles
  have wellScoped : (Formula.property "True" "tom").WellScoped IsUnreserved [] :=
    Program.wellScoped_of_parse parsed (List.mem_append_right _ (List.mem_singleton_self _))
  exact absurd (wellScoped.usable_symbol List.mem_cons_self) (by decide)

end Argument.Compiler

end Ergo
