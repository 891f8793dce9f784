import Ergo.Proofs.Quantity.Reading
import Ergo.Proofs.Session.Agreement

/-!
The variables that a text declares. Reading constraints keeps the names of the text in their order,
all but the words that join or stand for truth values, so the variables of a system are known from
its tokens (`declares_names`).
-/

namespace Ergo

open Ergo.Language

/-! ## Names in order of first occurrence -/

theorem NameSet.names_ofList (names : List String) : (ofList names).names = names.eraseDups := by
  induction names using List.reverseRecOn with
  | nil => rfl
  | append_singleton names name induction =>
      have step : ofList (names ++ [name]) = (ofList names).insert name :=
        insertAll_append empty names [name]
      rw [step, insert, List.eraseDups_append, ← induction]
      by_cases present : name ∈ names
      · rw [dif_pos (contains_iff_mem.mpr (mem_ofList.mpr present))]
        simp [List.removeAll, present]
      · rw [dif_neg (by simpa using present)]
        simp [List.removeAll, present, List.eraseDups_cons]

/-! ## Texts that are not blank -/

namespace Language

theorem isBlank_of_isNumberPart {char : Char} (inNumber : isNumberPart char = true) :
    Text.isBlank char = false := by
  simp only [isNumberPart, Bool.or_eq_true, beq_iff_eq] at inNumber
  rcases inNumber with digit | rfl
  · exact isBlank_of_isNamePart (by simp [isNamePart, Char.isAlphanum, digit])
  · decide

theorem isBlank_of_sign? {char : Char} {rest : List Char} {sign : Lexeme × Nat}
    (isSign : sign? char rest = some sign) : Text.isBlank char = false := by
  unfold sign? at isSign
  dsimp only at isSign
  split at isSign <;> first | decide | cases isSign

/-- Blanks are skipped or refused. -/
theorem scanFrom_of_blank {position : Nat} {chars : List Char} {tokens : List Token}
    (blank : ∀ char ∈ chars, Text.isBlank char = true)
    (scanned : scanFrom position chars = .ok tokens) : tokens = [] := by
  fun_induction scanFrom position chars generalizing tokens
  case case1 =>
    cases scanned
    rfl
  case case2 induction => exact induction (List.forall_mem_cons.mp blank).2 scanned
  case case3 | case6 => cases scanned
  case case4 char rest _ inNumber _ _ _ _ =>
    simp [isBlank_of_isNumberPart inNumber] at blank
  case case5 char rest _ _ starts _ _ =>
    simp [isBlank_of_isNamePart (isNamePart_of_isNameStart starts)] at blank
  case case7 sign _ => simp [isBlank_of_sign? sign] at blank

end Language

theorem Text.blank_of_trimChars_eq_nil {chars : List Char} (trimmed : trimChars chars = []) :
    ∀ char ∈ chars, isBlank char = true := by
  rw [trimChars, trimEnd, List.reverse_eq_nil_iff, List.dropWhile_eq_nil_iff] at trimmed
  -- What is left at the start begins with a visible character, if there is any.
  have visible := List.head?_dropWhile_not isBlank chars
  cases start : trimStart chars with
  | nil => exact List.dropWhile_eq_nil_iff.mp start
  | cons first later =>
      have firstBlank := trimmed first (by simp [start])
      rw [trimStart] at start
      rw [start, List.head?_cons] at visible
      exact absurd firstBlank (by simpa using visible)

theorem Constraint.filled_of_parseList {text : String} {constraints : List Constraint}
    (read : parseList text = .ok constraints) : (Text.trimChars text.toList).isEmpty = false := by
  rw [List.isEmpty_eq_false_iff]
  intro trimmed
  obtain ⟨expressions, parsed, -⟩ := bind_eq_ok_iff.mp read
  obtain ⟨tokens, scanned, parsed⟩ := bind_eq_ok_iff.mp parsed
  obtain rfl := scanFrom_of_blank (Text.blank_of_trimChars_eq_nil trimmed) scanned
  cases parsed

/-! ## Names of constraints -/

namespace Constraint

/-- The words that join constraints or stand for truth values. -/
def logicalWords : List String :=
  ["And", "Or", "Not", "Implies", "True", "False"]

def variableNames (names : List String) : List String :=
  names.filter (· ∉ logicalWords)

@[simp] theorem variableNames_append (names others : List String) :
    variableNames (names ++ others) = variableNames names ++ variableNames others :=
  List.filter_append names others

theorem variableNames_flatMap {item : Type} (items : List item) (names : item → List String) :
    variableNames (items.flatMap names) = items.flatMap fun item => variableNames (names item) :=
  List.filter_flatMap

theorem isReserved_of_mem_logicalWords : ∀ word ∈ logicalWords, isReserved word = true := by
  decide

/-- Other names in what is read as a quantity have no meaning of their own. -/
theorem variableNames_of_quantity {expression : Expression} {quantity : Quantity}
    (read : Quantity.ofExpression expression = .ok quantity) :
    variableNames expression.names = quantity.variableOccurrences := by
  rw [← Quantity.variableOccurrences_eq_names read, variableNames, List.filter_eq_self]
  intro name occurs
  have unreserved := (Quantity.wellFormed_of_ofExpression read).unreserved name occurs
  rw [decide_eq_true_iff]
  intro logical
  rw [IsUnreserved, isReserved_of_mem_logicalWords name logical] at unreserved
  cases unreserved

theorem variableOccurrences_of_ofConnective {keyword : Option Keyword} {function : String}
    {position : Nat} {parts : List Constraint} {constraint : Constraint}
    (read : ofConnective position function keyword parts = .ok constraint) :
    constraint.variableOccurrences = parts.flatMap variableOccurrences := by
  unfold ofConnective at read
  split at read <;> cases read <;> simp [variableOccurrences]

theorem mem_logicalWords_of_isConnective {function : String}
    (connects : isConnective (Keyword.ofText? function) = true) : function ∈ logicalWords := by
  cases found : Keyword.ofText? function with
  | none => simp [found, isConnective] at connects
  | some keyword =>
      rw [← Keyword.ofText?_sound found]
      rw [found] at connects
      cases keyword <;> first | decide | cases connects

theorem variableNames_of_ofExpression {expression : Expression} {constraint : Constraint}
    (read : ofExpression expression = .ok constraint) :
    variableNames expression.names = constraint.variableOccurrences := by
  induction expression using Expression.inductionOn generalizing constraint with
  | name position text =>
      rw [ofExpression] at read
      split at read
      · next isTruth =>
          cases read
          rw [← Keyword.ofText?_sound isTruth]
          rfl
      · next isFalsity =>
          cases read
          rw [← Keyword.ofText?_sound isFalsity]
          rfl
      · cases read
  | call position function arguments induction =>
      simp only [ofExpression] at read
      split at read
      · next connects =>
          obtain ⟨parts, partsRead, read⟩ := bind_eq_ok_iff.mp read
          have isLogical := mem_logicalWords_of_isConnective connects
          rw [variableOccurrences_of_ofConnective read, Expression.names, variableNames,
            List.filter_cons_of_neg (by simpa using isLogical), ← variableNames,
            itemsNames_eq_flatMap, variableNames_flatMap]
          exact flatMap_eq_flatMap_of_forall₂ (ofExpressions_eq_ok_iff.mp partsRead)
            fun argument member part partRead => induction argument member partRead
      · cases read
  | compare position comparison left right =>
      simp only [ofExpression, bind_eq_ok_iff] at read
      obtain ⟨leftQuantity, leftRead, rightQuantity, rightRead, read⟩ := read
      cases read
      rw [Expression.names, variableNames_append, variableNames_of_quantity leftRead,
        variableNames_of_quantity rightRead]
      rfl
  | number | list | negate | operate => cases read

/-- Reading constraints keeps the variables of the text, in their order. -/
theorem exists_scan_of_parseList {text : String} {constraints : List Constraint}
    (read : parseList text = .ok constraints) :
    ∃ tokens, scan text = .ok tokens ∧
      constraints.flatMap variableOccurrences = variableNames (tokenNames tokens) := by
  obtain ⟨expressions, parsed, constraintsRead⟩ := bind_eq_ok_iff.mp read
  obtain ⟨tokens, scanned, -, pieces, each, separated, rfl⟩ := parseExpressions_eq_ok_iff.mp parsed
  have sameNames := tokenNames_of_pieces (fun piece member => (each piece member).names_eq) separated
  refine ⟨tokens, scanned, ?_⟩
  rw [← sameNames, variableNames_flatMap]
  exact (flatMap_eq_flatMap_of_forall₂ (ofExpressions_eq_ok_iff.mp constraintsRead)
    fun expression _ constraint => variableNames_of_ofExpression).symm

end Constraint

/-- The variables among the names of a text, each where it first occurs. -/
def declaredNames (tokens : List Token) : List String :=
  (Constraint.variableNames (tokenNames tokens)).eraseDups

namespace Session

/-- The variables that a text declares when it is solved, and when it is added to a new session, are
its names other than the logical words, each listed where it first occurs. Values are reported of no
others, and of all of these by a solver that values all variables. -/
theorem declares_names {text : String} {constraints : List Constraint}
    (read : Constraint.parseList text = .ok constraints) (solver : Constraint.Solver) :
    ∃ tokens session, scan text = .ok tokens ∧ (new solver).add text = .ok session ∧
      Constraint.variablesOf constraints = declaredNames tokens ∧
      session.accepted.unknowns.names = declaredNames tokens ∧
      ∀ values, Equation.solve solver text = .solved values →
        (values.map Prod.fst).Sublist (declaredNames tokens) ∧
        (solver.ValuesAll → values.map Prod.fst = declaredNames tokens) := by
  obtain ⟨tokens, scanned, sameNames⟩ := Constraint.exists_scan_of_parseList read
  have declared : Constraint.variablesOf constraints = declaredNames tokens := by
    rw [Constraint.variablesOf, NameSet.names_ofList, sameNames, declaredNames]
  have filled := Constraint.filled_of_parseList read
  have added := add_of_read filled read (new solver)
  have unknowns : (Accepted.empty.extend text constraints).unknowns.names = declaredNames tokens := by
    rw [Accepted.names_unknowns_extend_empty, declared]
  refine ⟨tokens, _, scanned, added, declared, unknowns, fun values solved => ?_⟩
  rw [← unknowns]
  exact (agreesWithSolution_of_read filled read).names _ values added solved

def nested : List Constraint :=
  [.not (.compare .less (.var "y") (.negate (.var "x"))),
    .and [.constant true, .compare .equal (.var "x") (.var "z")]]

theorem nested_declares_names :
    Constraint.parseList "Not(y < -x), And(True, x = z)" = .ok nested ∧
      ∃ tokens session, scan "Not(y < -x), And(True, x = z)" = .ok tokens ∧
        (new .elimination).add "Not(y < -x), And(True, x = z)" = .ok session ∧
        session.accepted.unknowns.names = ["y", "x", "z"] ∧
        declaredNames tokens = ["y", "x", "z"] := by
  have read : Constraint.parseList "Not(y < -x), And(True, x = z)" = .ok nested := by decide +kernel
  obtain ⟨tokens, session, scanned, added, declared, unknowns, -⟩ :=
    declares_names read .elimination
  have names : declaredNames tokens = ["y", "x", "z"] := by
    rw [← declared]
    decide
  exact ⟨read, tokens, session, scanned, added, unknowns.trans names, names⟩

end Session

end Ergo
