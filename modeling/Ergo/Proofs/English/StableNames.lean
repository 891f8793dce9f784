import Ergo.Proofs.English.Naming
import Ergo.Proofs.Program.RoundTrip
import Mathlib.Data.List.Chain

/-!
Names that are made again from names. The name of a thing is written in small letters and digits with
single underscores between them, and its own name is the same (`names_are_stable`); so what is looked
up by a name that was made before is found. Names of predicates and relations can be declared.
-/

namespace Ergo

open Ergo.Language Ergo.Text

namespace Text

theorem CaseRow.image_eq_self {rows : List CaseRow} {code : Nat}
    (outside : ∀ row ∈ rows, row.source.contains code = false) : CaseRow.image rows code = code := by
  induction rows with
  | nil => rfl
  | cons row rows induction =>
      obtain ⟨here, later⟩ := List.forall_mem_cons.mp outside
      rw [CaseRow.image, here, if_neg Bool.false_ne_true, induction later]

set_option maxRecDepth 4000 in
theorem source_of_mem_lowerRows :
    ∀ row ∈ lowerRows, row.source = ⟨0x41, 0x5A, 1⟩ ∨ 0x80 ≤ row.source.first := by
  decide

/-- A character of ASCII that is no capital is its own small form. -/
theorem lowerChar_eq_self {char : Char} (plain : char.toNat < 0x80)
    (small : char.isUpper = false) : lowerChar char = [char] := by
  have noExpansion : lowerExpansions.lookup char.toNat = none := by
    rw [List.lookup_eq_none_iff]
    intro entry member
    obtain rfl := List.mem_singleton.mp member
    simp only [bne_iff_ne]
    omega
  have unmoved : CaseRow.image lowerRows char.toNat = char.toNat := by
    refine CaseRow.image_eq_self fun row listed => ?_
    rcases source_of_mem_lowerRows row listed with capitals | beyond
    · have outside : ¬ (0x41 ≤ char.toNat ∧ char.toNat ≤ 0x5A) := by
        rw [← isUpper_iff, small]
        exact Bool.false_ne_true
      rw [capitals]
      simp [Stride.contains]
      omega
    · simp [Stride.contains]
      omega
  rw [lowerChar, mapCase, noExpansion, unmoved, Char.ofNat_toNat]

end Text

namespace English

/-- A small letter or a digit of ASCII. -/
def isSmallOrDigit (char : Char) : Bool :=
  char.isLower || char.isDigit

/-- Small letters, digits and underscores, of which none is the last character or follows another;
the first character is a letter, or an underscore with a digit after it. -/
structure IsStableName (name : String) : Prop where
  characters : ∀ char ∈ name.toList, isSmallOrDigit char = true ∨ char = '_'
  start : (∃ letter rest, name.toList = letter :: rest ∧ letter.isLower = true) ∨
    ∃ digit rest, name.toList = '_' :: digit :: rest ∧ digit.isDigit = true
  last : name.toList.getLast? ≠ some '_'
  single : name.toList.IsChain fun first second => ¬ (first = '_' ∧ second = '_')

variable {text name : String} {part : List Char} {parts : List (List Char)} {char : Char}

theorem lowerChar_of_isSmallOrDigit (plain : isSmallOrDigit char = true) :
    lowerChar char = [char] := by
  rw [isSmallOrDigit, Bool.or_eq_true, isLower_iff, isDigit_iff] at plain
  refine lowerChar_eq_self (by omega) (eq_false_of_ne_true fun isUpper => ?_)
  rw [isUpper_iff] at isUpper
  omega

theorem lowerChar_underscore : lowerChar '_' = ['_'] :=
  lowerChar_eq_self (by decide) (by decide)

/-! ## The parts of a name -/

/-- The letters and digits of names are capital letters, and small letters and digits. -/
theorem isPlain_eq (char : Char) : isPlain char = (char.isUpper || isSmallOrDigit char) :=
  Bool.or_assoc _ _ _

theorem isSmallOrDigit_of_mem_nameParts (member : part ∈ nameParts text) :
    part ≠ [] ∧ ∀ char ∈ part, isSmallOrDigit char = true := by
  obtain ⟨nonempty, each⟩ := mem_nameParts member
  refine ⟨nonempty, fun char inside => ?_⟩
  obtain ⟨plain, small⟩ := each char inside
  rwa [isPlain_eq, small, Bool.false_or] at plain

/-- Parts of names: some small letters and digits each. -/
def ArePlain (parts : List (List Char)) : Prop :=
  ∀ part ∈ parts, part ≠ [] ∧ ∀ char ∈ part, isSmallOrDigit char = true

theorem arePlain_nameParts (text : String) : ArePlain (nameParts text) :=
  fun _ member => isSmallOrDigit_of_mem_nameParts member

theorem ne_underscore_of_isSmallOrDigit (plain : isSmallOrDigit char = true) : char ≠ '_' := by
  rintro rfl
  cases plain

theorem isPlain_of_isSmallOrDigit (plain : isSmallOrDigit char = true) : isPlain char = true := by
  rw [isPlain_eq, plain, Bool.or_true]

theorem mem_intercalate_of_arePlain (plain : ArePlain parts)
    (member : char ∈ ['_'].intercalate parts) : isSmallOrDigit char = true ∨ char = '_' := by
  rcases mem_intercalate member with rfl | ⟨part, listed, inside⟩
  · exact .inr rfl
  · exact .inl ((plain part listed).2 char inside)

/-- What is joined begins with a small letter or digit. -/
theorem exists_intercalate_eq_cons (plain : ArePlain parts) (someParts : parts ≠ []) :
    ∃ first rest, ['_'].intercalate parts = first :: rest ∧ isSmallOrDigit first = true := by
  obtain ⟨part, later, rfl⟩ := List.exists_cons_of_ne_nil someParts
  obtain ⟨nonempty, each⟩ := plain part List.mem_cons_self
  obtain ⟨first, rest, rfl⟩ := List.exists_cons_of_ne_nil nonempty
  have starts := each first List.mem_cons_self
  cases later with
  | nil => exact ⟨first, rest, by simp, starts⟩
  | cons next later =>
      exact ⟨first, rest ++ '_' :: ['_'].intercalate (next :: later), by simp, starts⟩

theorem getLast?_intercalate (plain : ArePlain parts) (someParts : parts ≠ []) :
    (['_'].intercalate parts).getLast? ≠ some '_' := by
  obtain ⟨front, same⟩ := exists_intercalate_eq_append '_' someParts
  obtain ⟨nonempty, each⟩ := plain _ (List.getLast_mem someParts)
  rw [same, List.getLast?_append_of_ne_nil _ nonempty, List.getLast?_eq_some_getLast nonempty]
  intro isUnderscore
  have inPart := each _ (List.getLast_mem nonempty)
  exact ne_underscore_of_isSmallOrDigit inPart (Option.some.inj isUnderscore)

/-- No two neighbours are underscores. -/
theorem isChain_intercalate (plain : ArePlain parts) :
    (['_'].intercalate parts).IsChain fun first second => ¬ (first = '_' ∧ second = '_') := by
  have ofPart {part : List Char} (each : ∀ char ∈ part, isSmallOrDigit char = true) :
      part.IsChain fun first second => ¬ (first = '_' ∧ second = '_') := by
    refine List.Pairwise.isChain (List.pairwise_of_forall_mem_list fun first inside _ _ both => ?_)
    exact ne_underscore_of_isSmallOrDigit (each first inside) both.1
  induction parts with
  | nil => exact .nil
  | cons part later induction =>
      obtain ⟨⟨-, each⟩, laterPlain⟩ := List.forall_mem_cons.mp plain
      cases later with
      | nil =>
          rw [List.intercalate_singleton]
          exact ofPart each
      | cons next later =>
          obtain ⟨first, rest, same, starts⟩ := exists_intercalate_eq_cons laterPlain (by simp)
          rw [List.intercalate_cons_cons, List.append_assoc, List.singleton_append,
            List.isChain_append, List.isChain_cons]
          refine ⟨ofPart each, ⟨?_, induction laterPlain⟩, ?_⟩
          · rw [same]
            rintro _ ⟨⟩ both
            exact ne_underscore_of_isSmallOrDigit starts both.2
          · intro last isLast _ _ both
            exact ne_underscore_of_isSmallOrDigit (each last (List.mem_of_getLast? isLast)) both.1

/-! ## Names of things -/

theorem constantName_eq_some_iff : constantName text = some name ↔
    nameParts text ≠ [] ∧
      name = String.ofList (guardDigit (['_'].intercalate (nameParts text))) := by
  rw [constantName]
  split
  · next empty => simp [empty]
  · next someParts =>
      rw [Option.some.injEq, and_iff_right someParts]
      exact eq_comm

theorem flatMap_lowerChar_eq_self {chars : List Char}
    (each : ∀ char ∈ chars, isSmallOrDigit char = true ∨ char = '_') :
    chars.flatMap lowerChar = chars := by
  induction chars with
  | nil => rfl
  | cons char chars induction =>
      obtain ⟨here, later⟩ := List.forall_mem_cons.mp each
      have small : lowerChar char = [char] := by
        rcases here with plain | rfl
        · exact lowerChar_of_isSmallOrDigit plain
        · exact lowerChar_underscore
      rw [List.flatMap_cons, small, induction later, List.singleton_append]

theorem guardDigit_cases {chars : List Char} :
    guardDigit chars = chars ∨ guardDigit chars = '_' :: chars := by
  cases chars with
  | nil => exact .inl rfl
  | cons first rest =>
      rw [guardDigit]
      split
      · exact .inr rfl
      · exact .inl rfl

/-- The parts of a name are those from which it was made. -/
theorem nameParts_guardDigit_intercalate (plain : ArePlain parts) :
    nameParts (String.ofList (guardDigit (['_'].intercalate parts))) = parts := by
  have cut : runs isPlain (['_'].intercalate parts) = parts := by
    refine runs_intercalate (by decide) fun part listed => ⟨(plain part listed).1, ?_⟩
    exact fun char inside => isPlain_of_isSmallOrDigit ((plain part listed).2 char inside)
  have small : ∀ char ∈ ['_'].intercalate parts, isSmallOrDigit char = true ∨ char = '_' :=
    fun char member => mem_intercalate_of_arePlain plain member
  rw [nameParts, String.toList_ofList]
  rcases @guardDigit_cases (['_'].intercalate parts) with same | guarded
  · rw [same, flatMap_lowerChar_eq_self small, cut]
  · rw [guarded, flatMap_lowerChar_eq_self (List.forall_mem_cons.mpr ⟨.inr rfl, small⟩),
      runs_cons_of_not_keep (by decide), cut]

theorem constantName_constantName (named : constantName text = some name) :
    constantName name = some name := by
  obtain ⟨someParts, same⟩ := constantName_eq_some_iff.mp named
  have parts : nameParts name = nameParts text := by
    rw [same, nameParts_guardDigit_intercalate (arePlain_nameParts text)]
  rw [constantName_eq_some_iff, parts]
  exact ⟨someParts, same⟩

theorem isStableName_of_constantName (named : constantName text = some name) :
    IsStableName name := by
  obtain ⟨someParts, rfl⟩ := constantName_eq_some_iff.mp named
  have plain := arePlain_nameParts text
  have characters : ∀ char ∈ ['_'].intercalate (nameParts text),
      isSmallOrDigit char = true ∨ char = '_' :=
    fun char member => mem_intercalate_of_arePlain plain member
  have last := getLast?_intercalate plain someParts
  have single := isChain_intercalate plain
  obtain ⟨first, rest, same, starts⟩ := exists_intercalate_eq_cons plain someParts
  rw [same] at characters last single ⊢
  rw [guardDigit]
  split
  · next digit =>
      refine ⟨?_, .inr ⟨first, rest, by simp, digit⟩, ?_, ?_⟩ <;> rw [String.toList_ofList]
      · exact List.forall_mem_cons.mpr ⟨.inr rfl, characters⟩
      · rwa [List.getLast?_cons_cons]
      · refine List.isChain_cons.mpr ⟨?_, single⟩
        rintro _ ⟨⟩ both
        exact ne_underscore_of_isSmallOrDigit starts both.2
  · next notDigit =>
      have letter : first.isLower = true := by
        rw [isSmallOrDigit, Bool.or_eq_true] at starts
        exact starts.resolve_right notDigit
      refine ⟨?_, .inl ⟨first, rest, by simp, letter⟩, ?_, ?_⟩ <;> rw [String.toList_ofList]
      · exact characters
      · exact last
      · exact single

theorem predicateName_constantName (named : constantName text = some name) :
    predicateName name = predicateName text := by
  rw [predicateName, predicateName, constantName_constantName named, named]

/-! ## Declarations -/

/-- An identifier for which every declaration of it, over sorts that are identifiers, is read back
from its text. -/
structure IsDeclarable (name : String) : Prop where
  identifier : isIdentifier name.toList = true
  declared : ∀ declaration : Declaration, declaration.name = name →
    (∀ sortName ∈ declaration.namedSorts, isIdentifier sortName.toList = true) →
      declaration.domain? ≠ some [] →
        Statement.parse declaration.render = .ok (.declare declaration)

theorem isDeclarable_of_isIdentifier (identifier : IsIdentifier name) : IsDeclarable name where
  identifier := identifier
  declared declaration named sorts domain := by
    subst named
    exact Declaration.IsWritten.parse_render ⟨identifier, sorts, domain⟩

/-- The name of a thing is a stable name, has itself as its name, and gives the predicate that the
text gives; and what is made as the name of a predicate or of a relation can be declared. -/
theorem names_are_stable (text : String) :
    (∀ name, constantName text = some name →
      IsStableName name ∧ constantName name = some name ∧ predicateName name = predicateName text) ∧
    (∀ name, predicateName text = some name → IsDeclarable name) ∧
    ∀ name, relationName text = some name → IsDeclarable name := by
  refine ⟨fun name named => ⟨?_, ?_, ?_⟩, fun name named => ?_, fun name named => ?_⟩
  · exact isStableName_of_constantName named
  · exact constantName_constantName named
  · exact predicateName_constantName named
  · exact isDeclarable_of_isIdentifier (isIdentifier_of_predicateName named)
  · exact isDeclarable_of_isIdentifier (isIdentifier_of_relationName named)

theorem thirdPerson_is_stable : constantName "3rd  Person" = some "_3rd_person" ∧
    IsStableName "_3rd_person" ∧ constantName "_3rd_person" = some "_3rd_person" := by
  have named : constantName "3rd  Person" = some "_3rd_person" := by decide +kernel
  obtain ⟨stable, same, -⟩ := (names_are_stable "3rd  Person").1 _ named
  exact ⟨named, stable, same⟩

end English

end Ergo
