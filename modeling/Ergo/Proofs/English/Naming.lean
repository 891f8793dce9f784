import Ergo.English.Naming
import Ergo.Proofs.Language.Scanning
import Ergo.Proofs.Lists
import Ergo.Proofs.Text.Words

/-!
Names made from English words. All of them are identifiers, and those of things have no capital of
ASCII, so that they are neither reserved nor the name of a sort.
-/

namespace Ergo

open Ergo.Language Ergo.Text

namespace Text

/-! ## Small letters -/

theorem CaseRow.image_cases (rows : List CaseRow) (code : Nat) :
    (CaseRow.image rows code = code ∧ ∀ row ∈ rows, row.source.contains code = false) ∨
      ∃ row ∈ rows, row.target ≤ CaseRow.image rows code := by
  induction rows with
  | nil => exact .inl ⟨rfl, by simp⟩
  | cons row rows induction =>
      rw [CaseRow.image]
      split
      · exact .inr ⟨row, by simp, Nat.le_add_right _ _⟩
      · next outside =>
          rcases induction with ⟨same, none⟩ | ⟨later, listed, above⟩
          · refine .inl ⟨same, fun other member => ?_⟩
            rcases List.mem_cons.mp member with rfl | listed
            · exact eq_false_of_ne_true outside
            · exact none other listed
          · exact .inr ⟨later, List.mem_cons_of_mem _ listed, above⟩

theorem isUpper_ofNat {code : Nat} (isUpper : (Char.ofNat code).isUpper = true) :
    0x41 ≤ code ∧ code ≤ 0x5A := by
  rw [isUpper_iff, Char.ofNat] at isUpper
  by_cases valid : code.isValidChar
  · rwa [dif_pos valid] at isUpper
  · rw [dif_neg valid] at isUpper
    exact absurd isUpper (by decide)

set_option maxRecDepth 4000 in
theorem above_capitals_of_mem_lowerRows : ∀ row ∈ lowerRows, 0x5A < row.target := by
  decide

/-- No capital of ASCII is part of a small form. -/
theorem isUpper_of_mem_lowerChar {char small : Char} (member : small ∈ lowerChar char) :
    small.isUpper = false := by
  rw [lowerChar, mapCase] at member
  split at member
  · next images found =>
      have expansions : ∀ entry ∈ lowerExpansions, ∀ image ∈ entry.2,
          (Char.ofNat image).isUpper = false := by
        decide
      obtain ⟨image, listed, rfl⟩ := List.mem_map.mp member
      exact expansions _ (mem_of_lookup_eq_some found) image listed
  · rw [List.mem_singleton.mp member]
    refine eq_false_of_ne_true fun isUpper => ?_
    have bounds := isUpper_ofNat isUpper
    rcases CaseRow.image_cases lowerRows char.toNat with ⟨same, outside⟩ | ⟨row, listed, above⟩
    · -- the first row moves the capitals of ASCII
      rw [same] at bounds
      have unmoved := outside ⟨⟨0x41, 0x5A, 1⟩, 0x61⟩ List.mem_cons_self
      simp [Stride.contains, Nat.mod_one] at unmoved
      omega
    · have beyond := above_capitals_of_mem_lowerRows row listed
      omega

/-! ## Runs -/

theorem mem_runsFrom {keep : Char → Bool} {current chars run : List Char}
    (keeps : ∀ char ∈ current, keep char = true) (member : run ∈ runsFrom keep current chars) :
    run ≠ [] ∧ ∀ char ∈ run, keep char = true ∧ (char ∈ current ∨ char ∈ chars) := by
  induction chars generalizing current with
  | nil =>
      rw [runsFrom] at member
      split at member
      · cases member
      · next someChar =>
          rw [List.mem_singleton.mp member]
          refine ⟨by simpa using someChar, fun char inside => ?_⟩
          rw [List.mem_reverse] at inside
          exact ⟨keeps char inside, .inl inside⟩
  | cons char chars induction =>
      rw [runsFrom] at member
      split at member
      · next kept =>
          obtain ⟨nonempty, each⟩ := induction (by simpa [kept] using keeps) member
          refine ⟨nonempty, fun other inside => ⟨(each other inside).1, ?_⟩⟩
          rcases (each other inside).2 with inCurrent | inChars
          · rcases List.mem_cons.mp inCurrent with rfl | earlier
            · exact .inr (by simp)
            · exact .inl earlier
          · exact .inr (List.mem_cons_of_mem _ inChars)
      · have ofLater : run ∈ runsFrom keep [] chars →
            run ≠ [] ∧ ∀ other ∈ run, keep other = true ∧ (other ∈ current ∨ other ∈ char :: chars) := by
          intro later
          obtain ⟨nonempty, each⟩ := induction (by simp) later
          refine ⟨nonempty, fun other inside => ⟨(each other inside).1, .inr ?_⟩⟩
          exact List.mem_cons_of_mem _ ((each other inside).2.resolve_left List.not_mem_nil)
        split at member
        · exact ofLater member
        · next someChar =>
            rcases List.mem_cons.mp member with rfl | later
            · refine ⟨by simpa using someChar, fun other inside => ?_⟩
              rw [List.mem_reverse] at inside
              exact ⟨keeps other inside, .inl inside⟩
            · exact ofLater later

theorem mem_runs {keep : Char → Bool} {chars run : List Char} (member : run ∈ runs keep chars) :
    run ≠ [] ∧ ∀ char ∈ run, keep char = true ∧ char ∈ chars := by
  obtain ⟨nonempty, each⟩ := mem_runsFrom (by simp) member
  refine ⟨nonempty, fun char inside => ⟨(each char inside).1, ?_⟩⟩
  exact (each char inside).2.resolve_left List.not_mem_nil

end Text

/-! ## Names -/

namespace English

/-- An identifier without capitals of ASCII. -/
structure IsSmallName (name : String) : Prop where
  identifier : IsIdentifier name
  small : ∀ char ∈ name.toList, char.isUpper = false

theorem IsSmallName.ne {name other : String} (smallName : IsSmallName name)
    (capital : other.toList.any Char.isUpper = true) : name ≠ other := by
  rintro rfl
  obtain ⟨char, member, isUpper⟩ := List.any_eq_true.mp capital
  exact absurd isUpper (by simp [smallName.small char member])

theorem IsSmallName.not_mem {name : String} {others : List String} (smallName : IsSmallName name)
    (capitals : ∀ other ∈ others, other.toList.any Char.isUpper = true) : name ∉ others :=
  fun member => smallName.ne (capitals name member) rfl

theorem IsSmallName.unreserved {name : String} (smallName : IsSmallName name) :
    IsUnreserved name := by
  rw [← ofText?_eq_none_iff]
  cases found : Keyword.ofText? name with
  | none => rfl
  | some keyword =>
      have same := Keyword.ofText?_sound found
      refine absurd same.symm (smallName.ne ?_)
      cases keyword <;> decide

theorem isNameStart_toUpper {char : Char} (starts : isNameStart char = true) :
    isNameStart char.toUpper = true := by
  simp only [isNameStart, isAlpha_iff, Bool.or_eq_true, isUpper_iff, isLower_iff,
    beq_iff_eq] at starts ⊢
  delta Char.toUpper
  split
  · next isLower =>
      obtain ⟨above, below⟩ := isLower
      simp [UInt32.le_iff_toNat_le] at above below
      refine .inl (.inl ?_)
      simp only [Char.toNat, UInt32.toNat_add]
      simp
      omega
  · exact starts

theorem mem_nameParts {text : String} {part : List Char} (member : part ∈ nameParts text) :
    part ≠ [] ∧ ∀ char ∈ part, isPlain char = true ∧ char.isUpper = false := by
  obtain ⟨nonempty, each⟩ := mem_runs member
  refine ⟨nonempty, fun char inside => ?_⟩
  obtain ⟨plain, fromText⟩ := each char inside
  obtain ⟨original, -, small⟩ := List.mem_flatMap.mp fromText
  exact ⟨plain, isUpper_of_mem_lowerChar small⟩

theorem mem_intercalate {separator char : Char} {parts : List (List Char)}
    (member : char ∈ [separator].intercalate parts) :
    char = separator ∨ ∃ part ∈ parts, char ∈ part := by
  induction parts with
  | nil => cases member
  | cons part parts induction =>
      cases parts with
      | nil => exact .inr ⟨part, by simp, by simpa using member⟩
      | cons next parts =>
          rw [List.intercalate_cons_cons, List.append_assoc, List.mem_append,
            List.mem_append, List.mem_singleton] at member
          rcases member with inPart | rfl | later
          · exact .inr ⟨part, by simp, inPart⟩
          · exact .inl rfl
          · rcases induction later with isSeparator | ⟨other, listed, inside⟩
            · exact .inl isSeparator
            · exact .inr ⟨other, List.mem_cons_of_mem _ listed, inside⟩

/-- The characters of a name that may still begin with a digit. -/
structure IsNameBody (chars : List Char) : Prop where
  nonempty : chars ≠ []
  parts : ∀ char ∈ chars, isNamePart char = true
  small : ∀ char ∈ chars, char.isUpper = false

theorem isNameBody_nameParts {text : String} (nonempty : nameParts text ≠ []) :
    IsNameBody (['_'].intercalate (nameParts text)) := by
  have each : ∀ char ∈ ['_'].intercalate (nameParts text),
      isNamePart char = true ∧ char.isUpper = false := by
    intro char member
    rcases mem_intercalate member with rfl | ⟨part, listed, inside⟩
    · exact ⟨by decide, by decide⟩
    · obtain ⟨plain, small⟩ := (mem_nameParts listed).2 char inside
      exact ⟨by rw [isNamePart, ← isPlain, plain, Bool.true_or], small⟩
  refine ⟨?_, fun char member => (each char member).1, fun char member => (each char member).2⟩
  obtain ⟨first, later, same⟩ := List.exists_cons_of_ne_nil nonempty
  have someChar := (mem_nameParts (same ▸ List.mem_cons_self : first ∈ nameParts text)).1
  cases later with
  | nil => simpa [same] using someChar
  | cons next later => simp [same]

theorem IsNameBody.isSmallName {chars : List Char} (body : IsNameBody chars) :
    IsSmallName (String.ofList (guardDigit chars)) := by
  obtain ⟨first, rest, rfl⟩ := List.exists_cons_of_ne_nil body.nonempty
  have restParts : ∀ char ∈ rest, isNamePart char = true :=
    fun char member => body.parts char (List.mem_cons_of_mem _ member)
  rw [guardDigit]
  split
  · refine ⟨?_, ?_⟩
    · rw [IsIdentifier, String.toList_ofList, isIdentifier_cons_iff]
      exact ⟨by decide, body.parts⟩
    · rw [String.toList_ofList]
      intro char member
      rcases List.mem_cons.mp member with rfl | inBody
      · decide
      · exact body.small char inBody
  · next notDigit =>
      have starts : isNameStart first = true := by
        have isPart := body.parts first List.mem_cons_self
        simp only [isNamePart, Char.isAlphanum, notDigit, Bool.or_false] at isPart
        exact isPart
      refine ⟨?_, by simpa only [String.toList_ofList] using body.small⟩
      rw [IsIdentifier, String.toList_ofList, isIdentifier_cons_iff]
      exact ⟨starts, restParts⟩

theorem isSmallName_of_constantName {text name : String} (named : constantName text = some name) :
    IsSmallName name := by
  rw [constantName] at named
  split at named
  · cases named
  · next someParts =>
      cases named
      exact (isNameBody_nameParts someParts).isSmallName

theorem isIdentifier_of_predicateName {text name : String}
    (named : predicateName text = some name) : IsIdentifier name := by
  obtain ⟨constant, isConstant, rfl⟩ := Option.map_eq_some_iff.mp named
  have identifier := (isSmallName_of_constantName isConstant).identifier
  obtain ⟨first, rest, same⟩ := List.exists_cons_of_ne_nil identifier.ne_nil
  rw [IsIdentifier, same, isIdentifier_cons_iff] at identifier
  rw [IsIdentifier, String.toList_ofList, same, capitalize, isIdentifier_cons_iff]
  exact ⟨isNameStart_toUpper identifier.1, identifier.2⟩

theorem isIdentifier_of_relationName {phrase name : String}
    (named : relationName phrase = some name) : IsIdentifier name := by
  rw [relationName] at named
  split at named
  · cases named
  · next first rest letters =>
      split at named
      · next isAlpha =>
          cases named
          have parts : ∀ char ∈ first :: rest, isNamePart char = true := by
            intro char member
            rw [← letters, List.mem_filter, List.mem_flatMap] at member
            obtain ⟨⟨word, named, inside⟩, -⟩ := member
            obtain ⟨text, -, isPredicate⟩ := List.mem_filterMap.mp named
            exact all_isNamePart_of_isIdentifier (isIdentifier_of_predicateName isPredicate) char inside
          rw [IsIdentifier, String.toList_ofList, letters, isIdentifier_cons_iff]
          refine ⟨by rw [isNameStart, isAlpha, Bool.true_or], fun char member => ?_⟩
          exact parts char (List.mem_cons_of_mem _ member)
      · cases named

end English

end Ergo
