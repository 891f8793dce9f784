import Ergo.Proofs.Constraint.Truth
import Ergo.Proofs.Language.Places
import Ergo.Proofs.Program.Layout

/-!
Positions of errors. Whatever reads a text, the error that refuses it is at a character of the text or at
its end, and what the error quotes is written there. An assertion is refused just if its formula is, at the
same character (`errors_point_into_text`).
-/

namespace Ergo

open Ergo.Language Ergo.Text

variable {chars : List Char}

/-! ## Refusals -/

/-- If the computation fails, its error stands in the text. -/
def FailsIn {value : Type} (chars : List Char) : Except ParseError value → Prop :=
  Meets (fun _ => True) (·.StandsIn chars)

section FailsIn

variable {value other : Type} {result : Except ParseError value}

theorem failsIn_ok (read : value) : FailsIn chars (.ok read) := trivial

theorem FailsIn.bind {next : value → Except ParseError other} (first : FailsIn chars result)
    (later : ∀ middle, FailsIn chars (next middle)) : FailsIn chars (result >>= next) :=
  Meets.bind first fun middle _ => later middle

theorem FailsIn.map {change : value → other} (first : FailsIn chars result) :
    FailsIn chars (result.map change) :=
  Meets.map first fun _ _ => trivial

end FailsIn

/-! ## Formulas -/

theorem Term.failsIn_ofExpression {expression : Expression} (stands : expression.StandsIn chars)
    (bound : List String) : FailsIn chars (Term.ofExpression bound expression) := by
  cases stands with
  | name placed =>
      rw [Term.ofExpression]
      split
      · exact placed
      · split <;> exact failsIn_ok _
  | number placed | list placed _ | call placed _ | negate placed _ | operate placed _ _
  | compare placed _ _ => exact placed.place

theorem failsIn_boundName {expression : Expression} (stands : expression.StandsIn chars) :
    FailsIn chars (boundName expression) := by
  cases stands with
  | name placed =>
      rw [boundName]
      split
      · exact placed.place
      · exact failsIn_ok _
  | number placed | list placed _ | call placed _ | negate placed _ | operate placed _ _
  | compare placed _ _ => exact placed.place

theorem failsIn_boundNames {expression : Expression} (stands : expression.StandsIn chars) :
    FailsIn chars (boundNames expression) := by
  cases stands with
  | name placed =>
      exact (failsIn_boundName (.name placed)).bind fun _ => failsIn_ok _
  | list placed itemsStand =>
      rw [boundNames]
      split
      · exact placed
      · exact meets_mapM fun item member => failsIn_boundName (itemsStand item member)
  | number placed | call placed _ | negate placed _ | operate placed _ _
  | compare placed _ _ => exact placed.place

namespace Formula

theorem failsIn_ofExpressions {bound : List String} {expressions : List Expression}
    (each : ∀ expression ∈ expressions, FailsIn chars (ofExpression bound expression)) :
    FailsIn chars (ofExpressions bound expressions) := by
  rw [ofExpressions_eq_mapM]
  exact meets_mapM each

theorem failsIn_quantifier {binders body : Expression} (quantify : List String → Formula → Formula)
    (bound : List String) (bindersStand : binders.StandsIn chars)
    (bodyFails : ∀ bound, FailsIn chars (ofExpression bound body)) :
    FailsIn chars (do
      let names ← boundNames binders
      let body ← ofExpression (bound ++ names) body
      return quantify names body) :=
  (failsIn_boundNames bindersStand).bind fun names =>
    (bodyFails (bound ++ names)).bind fun _ => failsIn_ok _

theorem failsIn_ofExpression {expression : Expression} (stands : expression.StandsIn chars)
    (bound : List String) : FailsIn chars (ofExpression bound expression) := by
  induction stands generalizing bound with
  | name placed =>
      rw [ofExpression]
      split
      · exact failsIn_ok _
      · exact failsIn_ok _
      · exact placed
  | call placed operandsStand induction =>
      have each : ∀ operand ∈ _, FailsIn chars (ofExpression bound operand) :=
        fun operand member => induction operand member bound
      rw [ofExpression.eq_def]
      dsimp only
      split
      · exact failsIn_quantifier .forAll bound (operandsStand _ (by simp)) (induction _ (by simp))
      · exact failsIn_quantifier .forSome bound (operandsStand _ (by simp)) (induction _ (by simp))
      · exact (each _ (by simp)).bind fun _ => failsIn_ok _
      · exact (each _ (by simp)).bind fun _ => (each _ (by simp)).bind fun _ => failsIn_ok _
      · exact (failsIn_ofExpressions each).bind fun _ => failsIn_ok _
      · exact (failsIn_ofExpressions each).bind fun _ => failsIn_ok _
      -- A connective with other operands and a truth value that is called are refused by name.
      iterate 6 exact placed
      · refine FailsIn.bind (meets_mapM fun operand member => ?_) fun _ => failsIn_ok _
        exact Term.failsIn_ofExpression (operandsStand operand member) bound
  | compare placed leftStands rightStands _ _ =>
      rw [ofExpression]
      refine (Term.failsIn_ofExpression leftStands bound).bind fun left => ?_
      refine (Term.failsIn_ofExpression rightStands bound).bind fun right => ?_
      split
      · exact failsIn_ok _
      · exact failsIn_ok _
      · exact placed
  | number placed | list placed _ _ | negate placed _ _ | operate placed _ _ _ _ =>
      exact placed.place

theorem failsIn_parse (text : String) : FailsIn text.toList (parse text) :=
  Meets.bind (meets_parseExpression text) fun _ stands => failsIn_ofExpression stands []

end Formula

/-! ## Quantities and constraints -/

namespace Quantity

theorem failsIn_checked {position : Nat} (placed : StandsAt chars [] position) (quantity : Quantity) :
    FailsIn chars (checked position quantity) := by
  rw [checked]
  split
  · exact placed
  · exact failsIn_ok _

theorem failsIn_divisorValue {position : Nat} (placed : StandsAt chars [] position)
    (divisor : Quantity) : FailsIn chars (divisorValue position divisor) := by
  rw [divisorValue]
  split
  · exact placed
  · split
    · exact placed
    · exact failsIn_ok _

theorem failsIn_ofExpression {expression : Expression} (stands : expression.StandsIn chars) :
    FailsIn chars (ofExpression expression) := by
  induction stands with
  | number placed => exact failsIn_checked placed _
  | name placed =>
      rw [ofExpression]
      split
      · exact placed
      · exact failsIn_ok _
  | negate placed _ induction => exact induction.bind fun _ => failsIn_checked placed _
  | @operate position operator left right placed _ rightStands leftInduction rightInduction =>
      rw [ofExpression]
      refine leftInduction.bind fun leftQuantity => rightInduction.bind fun rightQuantity => ?_
      cases operator with
      | add | subtract => exact failsIn_checked placed _
      | multiply =>
          dsimp only
          split
          · exact failsIn_checked placed _
          · exact placed
      | divide =>
          exact (failsIn_divisorValue rightStands.place _).bind fun _ => failsIn_checked placed _
  | call placed _ _ => exact placed
  | list placed _ _ => exact placed
  | compare placed _ _ _ _ => exact placed.place

theorem failsIn_parse (text : String) : FailsIn text.toList (parse text) :=
  Meets.bind (meets_parseExpression text) fun _ stands => failsIn_ofExpression stands

end Quantity

namespace Constraint

theorem failsIn_ofConnective {position : Nat} {function : String}
    (placed : StandsAt chars function.toList position) (keyword : Option Keyword)
    (parts : List Constraint) : FailsIn chars (ofConnective position function keyword parts) := by
  unfold ofConnective
  split
  iterate 4 exact failsIn_ok _
  exact placed

theorem failsIn_ofExpressions {expressions : List Expression}
    (each : ∀ expression ∈ expressions, FailsIn chars (ofExpression expression)) :
    FailsIn chars (ofExpressions expressions) := by
  rw [ofExpressions_eq_mapM]
  exact meets_mapM each

theorem failsIn_ofExpression {expression : Expression} (stands : expression.StandsIn chars) :
    FailsIn chars (ofExpression expression) := by
  induction stands with
  | name placed =>
      rw [ofExpression]
      split
      · exact failsIn_ok _
      · exact failsIn_ok _
      · exact placed.place
  | call placed _ each =>
      rw [ofExpression]
      split
      · exact (failsIn_ofExpressions each).bind fun parts => failsIn_ofConnective placed _ parts
      · exact placed
  | compare _ leftStands rightStands _ _ =>
      rw [ofExpression]
      exact (Quantity.failsIn_ofExpression leftStands).bind fun _ =>
        (Quantity.failsIn_ofExpression rightStands).bind fun _ => failsIn_ok _
  | number placed | list placed _ _ | negate placed _ _ | operate placed _ _ _ _ =>
      exact placed.place

theorem failsIn_parseList (text : String) : FailsIn text.toList (parseList text) :=
  Meets.bind (meets_parseExpressions text) fun _ each =>
    failsIn_ofExpressions fun expression member => failsIn_ofExpression (each expression member)

end Constraint

/-! ## Statements -/

namespace Statement

variable {parts : StatementParts}

theorem failsIn_singleSort {offset : Nat} (placed : StandsAt chars [] offset) (kind : SymbolKind)
    (sorts : List String) : FailsIn chars (singleSort kind offset sorts) := by
  unfold singleSort
  split
  · exact failsIn_ok _
  · exact failsIn_ok _
  · exact placed

theorem failsIn_ofWords {offset : Nat} (placed : StandsAt chars [] offset) (kind : SymbolKind)
    (name : String) (sorts : List String) :
    FailsIn chars (Declaration.ofWords kind offset name sorts) := by
  cases kind with
  | sort =>
      rw [Declaration.ofWords]
      split
      · exact failsIn_ok _
      · exact placed
  | constant | var => exact (failsIn_singleSort placed _ sorts).map
  | predicate | relation => exact failsIn_ok _

/-- The error of an assertion is that of its formula, moved to where the formula lies. -/
theorem ofParts_of_assert (isAssertion : parts.keyword = "assert".toList) :
    ofParts parts = match Formula.parse (String.ofList parts.operands) with
      | .ok formula => .ok (.assert formula)
      | .error error => .error (error.shift parts.operandsOffset) := by
  have keyword : (String.ofList parts.keyword == "assert") = true := by
    rw [isAssertion, String.ofList_toList]
    rfl
  rw [ofParts]
  exact if_pos keyword

theorem ofParts_eq_error_iff (isAssertion : parts.keyword = "assert".toList) {error : ParseError} :
    ofParts parts = .error error ↔
      ∃ inner, Formula.parse (String.ofList parts.operands) = .error inner ∧
        error = inner.shift parts.operandsOffset := by
  rw [ofParts_of_assert isAssertion]
  cases Formula.parse (String.ofList parts.operands) with
  | ok formula => simp
  | error inner => simp [eq_comm]

theorem failsIn_ofParts (lies : parts.LiesIn chars) : FailsIn chars (ofParts parts) := by
  have operandsStand := lies.operands_standsAt
  rw [ofParts]
  dsimp only
  split
  · split
    · exact failsIn_ok _
    · next error refused =>
        have inOperands := (Formula.failsIn_parse _).of_eq_error refused
        rw [ParseError.StandsIn, String.toList_ofList] at inOperands
        exact inOperands.trans operandsStand
  · split
    · exact operandsStand.place
    · exact operandsStand.place
    · split
      · change StandsAt chars (String.ofList parts.keyword).toList parts.keywordOffset
        rw [String.toList_ofList]
        exact lies.keyword_standsAt
      · exact (failsIn_ofWords operandsStand.place _ _ _).map

theorem standsIn_of_parse_eq_error {text : String} {error : ParseError}
    (refused : parse text = .error error) : error.StandsIn text.toList := by
  have lies := StatementParts.liesIn_ofChars text.toList
  rw [parse] at refused
  -- Types that mention the parts of a text are compared by computing its keyword, and these are not.
  generalize StatementParts.ofChars text.toList = parts at lies refused
  exact (failsIn_ofParts lies).of_eq_error refused

/-- The assertion is refused as its formula is, at the same character or at the end of both. -/
structure RefusedAs (text : String) (parts : StatementParts) (error inner : ParseError) : Prop where
  refused : Formula.parse (String.ofList parts.operands) = .error inner
  fault : error.fault = inner.fault
  position : error.position = inner.position + parts.operandsOffset
  sameCharacter : ∀ char,
    String.Pos.Raw.get? (String.ofList parts.operands) ⟨inner.position⟩ = some char →
      String.Pos.Raw.get? text ⟨error.position⟩ = some char
  sameEnd : String.Pos.Raw.get? (String.ofList parts.operands) ⟨inner.position⟩ = none →
    ∃ before after, text.toList = before ++ after ∧ byteLength before = error.position ∧
      IsBlankText after

theorem refusedAs_shift {text : String} {inner : ParseError} (lies : parts.LiesIn text.toList)
    (refused : Formula.parse (String.ofList parts.operands) = .error inner) :
    RefusedAs text parts (inner.shift parts.operandsOffset) inner := by
  have stands := ((Formula.failsIn_parse _).of_eq_error refused).place
  have operandsStand := lies.operands_standsAt
  rw [← String.toList_ofList (l := parts.operands)] at operandsStand
  refine ⟨refused, rfl, rfl, fun char found => ?_, fun ended => ?_⟩
  · rcases stands.get?_cases with ⟨other, isOther, otherStands⟩ | ⟨none, -⟩
    · obtain rfl : other = char := Option.some.inj (isOther.symm.trans found)
      exact (otherStands.trans operandsStand).get?_eq
    · rw [found] at none
      cases none
  · rcases stands.get?_cases with ⟨other, isOther, -⟩ | ⟨-, atEnd⟩
    · rw [ended] at isOther
      cases isOther
    · obtain ⟨front, trailing, same, reached, blank⟩ := lies.exists_operands
      refine ⟨front ++ parts.operands, trailing, same, ?_, blank⟩
      rw [byteLength_append, reached, ParseError.shift, atEnd, ← byteLength_toList,
        String.toList_ofList, Nat.add_comm]

theorem parse_eq_error_iff {text : String} (lies : parts.LiesIn text.toList)
    (isAssertion : parts.keyword = "assert".toList) {error : ParseError} :
    parse text = .error error ↔ ∃ inner, RefusedAs text parts error inner := by
  have nonempty : parts.keyword ≠ [] := by
    rw [isAssertion]
    decide
  rw [parse, lies.eq_ofChars nonempty, ofParts_eq_error_iff isAssertion]
  constructor
  · rintro ⟨inner, refused, rfl⟩
    exact ⟨inner, refusedAs_shift lies refused⟩
  · rintro ⟨inner, refusal⟩
    refine ⟨inner, refusal.refused, ?_⟩
    rw [ParseError.shift, ← refusal.fault, ← refusal.position]

end Statement

/-! ## Errors of all readers -/

/-- The error is at the boundary of a character of the text, where what it quotes is written. -/
structure Language.ParseError.PointsInto (error : ParseError) (text : String) : Prop where
  within : error.position ≤ text.utf8ByteSize
  boundary : String.Pos.Raw.IsValid text ⟨error.position⟩
  quoted : ∃ before after, text = before ++ error.fault.quoted ++ after ∧
    before.utf8ByteSize = error.position

theorem Language.ParseError.StandsIn.pointsInto {error : ParseError} {text : String}
    (stands : error.StandsIn text.toList) : error.PointsInto text := by
  have quoted := stands.exists_append
  rw [String.ofList_toList] at quoted
  exact ⟨stands.le_utf8ByteSize, stands.isValid, quoted⟩

/-- Whatever is read from a text that is refused, the error is at a character of the text or at its end,
and what it quotes is written there. An assertion is refused just if its formula is, with the same fault
at the same character. -/
theorem errors_point_into_text :
    (∀ text error, parseExpression text = .error error → error.PointsInto text) ∧
      (∀ text error, parseExpressions text = .error error → error.PointsInto text) ∧
      (∀ text error, Formula.parse text = .error error → error.PointsInto text) ∧
      (∀ text error, Statement.parse text = .error error → error.PointsInto text) ∧
      (∀ text error, Quantity.parse text = .error error → error.PointsInto text) ∧
      (∀ text error, Constraint.parseList text = .error error → error.PointsInto text) ∧
      (∀ text : String, ∃ parts : StatementParts, parts.LiesIn text.toList) ∧
      ∀ (text : String) (parts : StatementParts), parts.LiesIn text.toList →
        parts.keyword = "assert".toList → ∀ error,
          Statement.parse text = .error error ↔ ∃ inner, Statement.RefusedAs text parts error inner := by
  have expression : ∀ text, FailsIn text.toList (parseExpression text) := fun text =>
    (meets_parseExpression text).imp (fun _ _ => trivial) fun _ stands => stands
  have expressions : ∀ text, FailsIn text.toList (parseExpressions text) := fun text =>
    (meets_parseExpressions text).imp (fun _ _ => trivial) fun _ stands => stands
  exact ⟨fun text _ refused => ((expression text).of_eq_error refused).pointsInto,
    fun text _ refused => ((expressions text).of_eq_error refused).pointsInto,
    fun text _ refused => ((Formula.failsIn_parse text).of_eq_error refused).pointsInto,
    fun _ _ refused => (Statement.standsIn_of_parse_eq_error refused).pointsInto,
    fun text _ refused => ((Quantity.failsIn_parse text).of_eq_error refused).pointsInto,
    fun text _ refused => ((Constraint.failsIn_parseList text).of_eq_error refused).pointsInto,
    fun text => ⟨_, StatementParts.liesIn_ofChars text.toList⟩,
    fun _ _ lies isAssertion _ => Statement.parse_eq_error_iff lies isAssertion⟩

/-- An assertion between wide spaces, with a letter that no word of the language has. -/
def accentedAssertion : String :=
  "\u3000assert\u2003Human(é) "

/-- Each reader refuses a text; in the assertion, characters of several bytes come before the error. -/
theorem accentedAssertion_refused :
    (parseExpression "x + é" = .error ⟨4, .unexpectedCharacter 'é'⟩ ∧
      ParseError.PointsInto ⟨4, .unexpectedCharacter 'é'⟩ "x + é") ∧
    (parseExpressions "x, f(y" = .error ⟨6, .expectedClosing ')'⟩ ∧
      ParseError.PointsInto ⟨6, .expectedClosing ')'⟩ "x, f(y") ∧
    (Formula.parse "Not(a <= b)" = .error ⟨6, .orderBetweenObjects .lessOrEqual⟩ ∧
      ParseError.PointsInto ⟨6, .orderBetweenObjects .lessOrEqual⟩ "Not(a <= b)") ∧
    (Statement.parse "\u3000declare-sort\u2003é" = .error ⟨18, .invalidIdentifier "é"⟩ ∧
      ParseError.PointsInto ⟨18, .invalidIdentifier "é"⟩ "\u3000declare-sort\u2003é") ∧
    (Quantity.parse "-(x * y)" = .error ⟨4, .productOfVariables⟩ ∧
      ParseError.PointsInto ⟨4, .productOfVariables⟩ "-(x * y)") ∧
    (Constraint.parseList "x > z, Not(Foo(y) < z)" = .error ⟨11, .notNumericFunction "Foo"⟩ ∧
      ParseError.PointsInto ⟨11, .notNumericFunction "Foo"⟩ "x > z, Not(Foo(y) < z)") ∧
    (StatementParts.ofChars accentedAssertion.toList).LiesIn accentedAssertion.toList ∧
    (StatementParts.ofChars accentedAssertion.toList).keyword = "assert".toList ∧
    Statement.parse accentedAssertion = .error ⟨18, .unexpectedCharacter 'é'⟩ ∧
    ∃ inner, Statement.RefusedAs accentedAssertion (StatementParts.ofChars accentedAssertion.toList)
      ⟨18, .unexpectedCharacter 'é'⟩ inner := by
  obtain ⟨expression, expressions, formula, statement, quantity, constraints, -, assertion⟩ :=
    errors_point_into_text
  have expressionRefused : parseExpression "x + é" = .error ⟨4, .unexpectedCharacter 'é'⟩ := by
    decide +kernel
  have expressionsRefused : parseExpressions "x, f(y" = .error ⟨6, .expectedClosing ')'⟩ := by
    decide +kernel
  have formulaRefused : Formula.parse "Not(a <= b)" =
      .error ⟨6, .orderBetweenObjects .lessOrEqual⟩ := by decide +kernel
  have statementRefused : Statement.parse "\u3000declare-sort\u2003é" =
      .error ⟨18, .invalidIdentifier "é"⟩ := by decide +kernel
  have quantityRefused : Quantity.parse "-(x * y)" = .error ⟨4, .productOfVariables⟩ := by
    decide +kernel
  have constraintsRefused : Constraint.parseList "x > z, Not(Foo(y) < z)" =
      .error ⟨11, .notNumericFunction "Foo"⟩ := by decide +kernel
  have lies := StatementParts.liesIn_ofChars accentedAssertion.toList
  have isAssertion : (StatementParts.ofChars accentedAssertion.toList).keyword = "assert".toList := by
    decide
  have assertionRefused : Statement.parse accentedAssertion =
      .error ⟨18, .unexpectedCharacter 'é'⟩ := by decide +kernel
  exact ⟨⟨expressionRefused, expression _ _ expressionRefused⟩,
    ⟨expressionsRefused, expressions _ _ expressionsRefused⟩,
    ⟨formulaRefused, formula _ _ formulaRefused⟩,
    ⟨statementRefused, statement _ _ statementRefused⟩,
    ⟨quantityRefused, quantity _ _ quantityRefused⟩,
    ⟨constraintsRefused, constraints _ _ constraintsRefused⟩, lies, isAssertion, assertionRefused,
    (assertion _ _ lies isAssertion _).mp assertionRefused⟩

end Ergo
