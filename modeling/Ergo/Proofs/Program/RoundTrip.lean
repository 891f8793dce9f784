import Ergo.Proof.Basic
import Ergo.Proofs.Formula.RoundTrip
import Ergo.Proofs.Text.Words

/-!
Programs and their written form. A statement is read back from its text if its names can be written
and what is applied in it takes arguments (`Statement.parse_render`); so is a program from the lines of
its premises and the text of its conclusion (`Program.IsWritten.parse`).
-/

namespace Ergo

open Ergo.Language Ergo.Text

/-! ## Ends of texts -/

/-- The text ends in a character that is not white space. -/
def EndsVisibly (chars : List Char) : Prop :=
  ∃ char ∈ chars.getLast?, isBlank char = false

theorem EndsVisibly.append {front chars : List Char} (ends : EndsVisibly chars) :
    EndsVisibly (front ++ chars) := by
  obtain ⟨char, isLast, visible⟩ := ends
  exact ⟨char, List.mem_getLast?_append_of_mem_getLast? isLast, visible⟩

theorem EndsVisibly.last {chars : List Char} (ends : EndsVisibly chars) :
    ∀ char ∈ chars.getLast?, isBlank char = false := by
  obtain ⟨last, isLast, visible⟩ := ends
  intro char member
  rwa [Option.mem_unique member isLast]

theorem isTrimmed_joined {keyword operands : List Char} (separator : Char) (nonempty : keyword ≠ [])
    (visible : ∀ char ∈ keyword, isBlank char = false) (ends : EndsVisibly operands) :
    IsTrimmed (keyword ++ separator :: operands) := by
  refine ⟨fun char isFirst => ?_, ?_⟩
  case refine_2 =>
    rw [← List.singleton_append]
    exact ends.append.append.last
  rw [List.head?_append_of_ne_nil _ nonempty] at isFirst
  exact visible char (List.mem_of_head? isFirst)

/-- A trimmed text that goes on behind white space goes on visibly. -/
theorem endsVisibly_of_isTrimmed {keyword operands : List Char} {separator : Char}
    (trimmed : IsTrimmed (keyword ++ separator :: operands)) (atSeparator : isBlank separator = true) :
    EndsVisibly operands := by
  rcases List.eq_nil_or_concat operands with rfl | ⟨front, last, rfl⟩
  · have visible := trimmed.last separator (by simp)
    rw [atSeparator] at visible
    cases visible
  · exact ⟨last, by simp, trimmed.last last (by simp [List.getLast?_cons])⟩

theorem Language.IsIdentifier.endsVisibly {name : String} (identifier : IsIdentifier name) :
    EndsVisibly name.toList := by
  refine ⟨name.toList.getLast identifier.ne_nil, List.getLast?_eq_some_getLast _, ?_⟩
  exact identifier.not_blank _ (List.getLast_mem _)

/-! ## Statements -/

/-- The names of a declaration can be written, and a symbol that applies takes some argument. -/
structure Declaration.IsWritten (declaration : Declaration) : Prop where
  name : IsIdentifier declaration.name
  sorts : ∀ sortName ∈ declaration.namedSorts, IsIdentifier sortName
  domain : declaration.domain? ≠ some []

def Statement.IsWritten : Statement → Prop
  | .declare declaration => declaration.IsWritten
  | .assert formula => formula.WellScoped (fun name => IsIdentifier name ∧ IsUnreserved name) []

/-- A keyword and its operands are found in a text that joins them by a blank. -/
theorem StatementParts.ofChars_joined {keyword operands : List Char}
    (nonempty : keyword ≠ []) (oneWord : keyword.any isBlank = false)
    (ends : EndsVisibly operands) :
    (StatementParts.ofChars (keyword ++ ' ' :: operands)).keyword = keyword ∧
      (StatementParts.ofChars (keyword ++ ' ' :: operands)).operands = operands := by
  have visible : ∀ char ∈ keyword, isBlank char = false := by
    simpa using oneWord
  have trimmed := isTrimmed_joined ' ' nonempty visible ends
  have cut : cutAtFirst isBlank (keyword ++ ' ' :: operands) = some (keyword, operands) :=
    cutAtFirst_append visible (by decide)
  rw [StatementParts.ofChars, trimmed.trimChars, cut]
  exact ⟨rfl, rfl⟩

namespace Declaration

variable {declaration : Declaration}

/-- The name and the sorts of a declaration. -/
def operandNames (declaration : Declaration) : List String :=
  declaration.name :: declaration.namedSorts

theorem IsWritten.identifiers (written : declaration.IsWritten) :
    ∀ name ∈ declaration.operandNames, IsIdentifier name := by
  intro name member
  rcases List.mem_cons.mp member with rfl | isSort
  · exact written.name
  · exact written.sorts name isSort

theorem IsWritten.render_eq (written : declaration.IsWritten) :
    declaration.render =
      declaration.kind.keyword ++ " " ++ " ".intercalate declaration.operandNames := by
  have joined : declaration.name ++ declaration.renderSorts =
      " ".intercalate declaration.operandNames := by
    have applied : ∀ name (domain : List String), domain ≠ [] →
        name ++ (" " ++ " ".intercalate domain) = " ".intercalate (name :: domain) := by
      intro name domain nonempty
      obtain ⟨first, later, rfl⟩ := List.exists_cons_of_ne_nil nonempty
      rw [← String.toList_inj]
      simp [String.toList_intercalate]
    cases declaration with
    | sort name => simp [Declaration.name, renderSorts, operandNames, namedSorts, sort?, domain?]
    | constant name sortName => exact applied name [sortName] (by simp)
    | var name sortName => exact applied name [sortName] (by simp)
    | predicate name domain => exact applied name domain fun empty => written.domain (by rw [empty]; rfl)
    | relation name domain => exact applied name domain fun empty => written.domain (by rw [empty]; rfl)
  rw [render, String.append_assoc, joined]

theorem keyword_spec (kind : SymbolKind) : kind.keyword.toList ≠ [] ∧
    kind.keyword.toList.any isBlank = false ∧ (kind.keyword == "assert") = false := by
  cases kind <;> decide

theorem IsWritten.ofWords (written : declaration.IsWritten) (offset : Nat) :
    Declaration.ofWords declaration.kind offset declaration.name declaration.namedSorts =
      .ok declaration := by
  have sorts : ∀ default domain : List String, domain ≠ [] → domainOr default domain = domain := by
    intro default domain nonempty
    rw [domainOr, List.isEmpty_eq_false_iff.mpr nonempty]
    rfl
  cases declaration with
  | sort name => rfl
  | constant name sortName => rfl
  | var name sortName => rfl
  | predicate name domain =>
      have same := sorts [objectSort] domain fun empty => written.domain (by rw [empty]; rfl)
      simp [Declaration.ofWords, kind, Declaration.name, namedSorts, sort?, domain?, same]
  | relation name domain =>
      have same := sorts [objectSort, objectSort] domain
        fun empty => written.domain (by rw [empty]; rfl)
      simp [Declaration.ofWords, kind, Declaration.name, namedSorts, sort?, domain?, same]

theorem IsWritten.parse_render (written : declaration.IsWritten) :
    Statement.parse declaration.render = .ok (.declare declaration) := by
  obtain ⟨nonempty, oneWord, notAssert⟩ := keyword_spec declaration.kind
  have joined : declaration.render.toList = declaration.kind.keyword.toList ++
      ' ' :: [' '].intercalate (declaration.operandNames.map String.toList) := by
    rw [written.render_eq]
    simp [String.toList_intercalate]
  have words : blankSeparated ([' '].intercalate (declaration.operandNames.map String.toList)) =
      declaration.operandNames.map String.toList := by
    apply runs_intercalate (by decide)
    intro word member
    obtain ⟨name, named, rfl⟩ := List.mem_map.mp member
    have identifier := written.identifiers name named
    exact ⟨identifier.ne_nil, by simpa using identifier.not_blank⟩
  have identifiers : (declaration.operandNames.map String.toList).find?
      (fun word => !isIdentifier word) = none := by
    rw [List.find?_eq_none]
    intro word member
    obtain ⟨name, named, rfl⟩ := List.mem_map.mp member
    have identifier : isIdentifier name.toList = true := written.identifiers name named
    simp [identifier]
  have ends : EndsVisibly ([' '].intercalate (declaration.operandNames.map String.toList)) := by
    have someName : declaration.operandNames ≠ [] := List.cons_ne_nil _ _
    obtain ⟨front, same⟩ := exists_intercalate_eq_append ' '
      (List.map_eq_nil_iff.not.mpr someName : declaration.operandNames.map String.toList ≠ [])
    rw [same, List.getLast_map]
    exact (written.identifiers _ (List.getLast_mem someName)).endsVisibly.append
  obtain ⟨keyword, operands⟩ := StatementParts.ofChars_joined nonempty oneWord ends
  rw [Statement.parse, joined, Statement.ofParts, keyword, operands, String.ofList_toList]
  simp only [notAssert, Bool.false_eq_true, if_false, words, identifiers]
  have sorts : (declaration.namedSorts.map String.toList).map String.ofList =
      declaration.namedSorts := by
    simp [Function.comp_def]
  simp [operandNames, sorts, written.ofWords, Except.map]

end Declaration

theorem endsVisibly_renderCall (function : String) (arguments : List String) :
    EndsVisibly (renderCall function arguments).toList := by
  rw [renderCall, String.toList_append]
  exact EndsVisibly.append ⟨')', by decide, by decide⟩

theorem Formula.WellScoped.endsVisibly_render {bound : List String} {formula : Formula}
    (wellScoped : formula.WellScoped IsIdentifier bound) : EndsVisibly formula.render.toList := by
  cases wellScoped with
  | truth => exact (isIdentifier_keyword .truth).endsVisibly
  | falsity => exact (isIdentifier_keyword .falsity).endsVisibly
  | equal _ rightScoped =>
      rw [render, String.toList_append]
      exact rightScoped.usable_name.endsVisibly.append
  | _ => exact endsVisibly_renderCall _ _

namespace Statement

theorem parse_render {statement : Statement} (written : statement.IsWritten) :
    Statement.parse statement.render = .ok statement := by
  cases statement with
  | declare declaration => exact Declaration.IsWritten.parse_render written
  | assert formula =>
      have wellScoped : formula.WellScoped (fun name => IsIdentifier name ∧ IsUnreserved name) [] :=
        written
      have ends := (wellScoped.imp fun _ usable => usable.1).endsVisibly_render
      have joined : (Statement.assert formula).render.toList =
          "assert".toList ++ ' ' :: formula.render.toList := by
        simp [Statement.render]
      obtain ⟨keyword, operands⟩ :=
        @StatementParts.ofChars_joined "assert".toList _ (by decide) (by decide) ends
      rw [Statement.parse, joined, Statement.ofParts, keyword, operands, String.ofList_toList,
        String.ofList_toList, Formula.parse_render wellScoped]
      rfl

/-- An assertion that is read has no reserved name, and its terms stand where their kind belongs. -/
theorem wellScoped_of_parse {text : String} {formula : Formula}
    (read : Statement.parse text = .ok (.assert formula)) : formula.WellScoped IsUnreserved [] := by
  rw [Statement.parse, ofParts] at read
  dsimp only at read
  split at read
  · split at read
    · next parsed =>
        cases read
        exact Formula.wellScoped_of_parse parsed
    · cases read
  · split at read
    · cases read
    · cases read
    · split at read
      · cases read
      · obtain ⟨declaration, -, same⟩ := map_eq_ok_iff.mp read
        cases same

end Statement

/-! ## Programs -/

namespace Program

/-- Every statement can be read back, and so can the conclusion. -/
structure IsWritten (program : Program) : Prop where
  statements : ∀ statement ∈ program.statements, statement.IsWritten
  conclusion : program.conclusion.WellScoped (fun name => IsIdentifier name ∧ IsUnreserved name) []

theorem parseStatements_eq_ok_iff {texts : List String} {statements : List Statement} :
    parseStatements texts = .ok statements ↔
      List.Forall₂ (fun text statement => Statement.parse text = .ok statement) texts statements := by
  induction texts generalizing statements with
  | nil => simp [parseStatements, eq_comm]
  | cons text texts induction =>
      rw [parseStatements, List.forall₂_cons_left_iff]
      cases parsed : Statement.parse text with
      | error error => simp
      | ok statement =>
          simp only [bind_eq_ok_iff, induction, pure, Except.pure, Except.ok.injEq]
          constructor
          · rintro ⟨later, laterRead, rfl⟩
            exact ⟨statement, later, rfl, laterRead, rfl⟩
          · rintro ⟨_, later, rfl, laterRead, rfl⟩
            exact ⟨later, laterRead, rfl⟩

/-- The formulas of a program that is read have no reserved names. -/
theorem wellScoped_of_parse {program : Program} {premises : List String} {conclusion : String}
    (read : Program.parse premises conclusion = .ok program) {formula : Formula}
    (stated : formula ∈ program.assertions ++ [program.conclusion]) :
    formula.WellScoped IsUnreserved [] := by
  obtain ⟨statements, statementsRead, conclusionRead⟩ := bind_eq_ok_iff.mp read
  split at conclusionRead
  · cases conclusionRead
  · next parsed =>
      cases conclusionRead
      rcases List.mem_append.mp stated with asserted | concluded
      · obtain ⟨statement, listed, isAssertion⟩ := List.mem_filterMap.mp asserted
        obtain ⟨text, -, statementRead⟩ :=
          exists_mem_left_of_forall₂ (parseStatements_eq_ok_iff.mp statementsRead) listed
        cases statement with
        | declare declaration => cases isAssertion
        | assert asserted =>
            cases isAssertion
            exact Statement.wellScoped_of_parse statementRead
      · rw [List.mem_singleton.mp concluded]
        exact Formula.wellScoped_of_parse parsed

theorem IsWritten.parse {program : Program} (written : program.IsWritten) :
    Program.parse program.premiseLines program.conclusion.render = .ok program := by
  have statementsRead : parseStatements program.premiseLines = .ok program.statements := by
    rw [parseStatements_eq_ok_iff, premiseLines, List.forall₂_map_left_iff, List.forall₂_same]
    exact fun statement listed => Statement.parse_render (written.statements statement listed)
  rw [Program.parse, statementsRead, Formula.parse_render written.conclusion]
  rfl

end Program

end Ergo
