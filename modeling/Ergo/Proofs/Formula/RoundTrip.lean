import Ergo.Formula.Printer
import Ergo.Formula.Reader
import Ergo.Proofs.Formula.Scope
import Ergo.Proofs.Language.Names
import Ergo.Proofs.Language.Phrase
import Ergo.Proofs.Lists

/-!
Formulas and their written form. The text of a formula spells the lexemes of its phrase, that phrase
is read as an expression, and the expression is read back as the formula (`parse_render`). What reading
asks for is that names can be written, that none of them is reserved, and that terms stand where their
kind belongs; the last two hold of every formula that is read (`wellScoped_of_parse`).
-/

namespace Ergo

open Ergo.Language

/-! ## Phrases of formulas -/

def Term.phrase (term : Term) : Phrase :=
  .name term.name

namespace Formula

mutual
def phrase : Formula → Phrase
  | .truth => .name Keyword.truth.text
  | .falsity => .name Keyword.falsity.text
  | .atom predicate arguments => .call predicate (arguments.map Term.phrase)
  | .equal left right => .equality left.name right.name
  | .not operand => .call Keyword.negation.text [operand.phrase]
  | .and parts => .call Keyword.conjunction.text (partsPhrases parts)
  | .or parts => .call Keyword.disjunction.text (partsPhrases parts)
  | .implies premise consequent =>
      .call Keyword.implication.text [premise.phrase, consequent.phrase]
  | .forAll binders body =>
      .call Keyword.universal.text [.bracketed (binders.map .name), body.phrase]
  | .forSome binders body =>
      .call Keyword.existential.text [.bracketed (binders.map .name), body.phrase]

def partsPhrases : List Formula → List Phrase
  | [] => []
  | part :: parts => part.phrase :: partsPhrases parts
end

@[simp] theorem partsPhrases_eq_map (parts : List Formula) :
    partsPhrases parts = parts.map phrase := by
  induction parts with
  | nil => simp [partsPhrases]
  | cons part parts induction => simp [partsPhrases, induction]

end Formula

theorem Term.isRead_phrase (term : Term) : term.phrase.IsRead :=
  Phrase.isRead_name term.name

theorem Phrase.isRead_names (names : List String) :
    (Phrase.bracketed (names.map .name)).IsRead := by
  apply Phrase.isRead_bracketed
  intro phrase member
  obtain ⟨name, _, rfl⟩ := List.mem_map.mp member
  exact Phrase.isRead_name name

theorem Formula.isRead_phrase (formula : Formula) : formula.phrase.IsRead := by
  induction formula with
  | truth => exact Phrase.isRead_name _
  | falsity => exact Phrase.isRead_name _
  | atom predicate arguments =>
      apply Phrase.isRead_call
      intro phrase member
      obtain ⟨argument, _, rfl⟩ := List.mem_map.mp member
      exact argument.isRead_phrase
  | equal left right => exact Phrase.isRead_equality _ _
  | not operand induction => exact Phrase.isRead_call _ (by simpa using induction)
  | and parts induction => exact Phrase.isRead_call _ (by simpa using induction)
  | or parts induction => exact Phrase.isRead_call _ (by simpa using induction)
  | implies premise consequent premiseInduction consequentInduction =>
      exact Phrase.isRead_call _ (by simpa using ⟨premiseInduction, consequentInduction⟩)
  | forAll binders body induction =>
      exact Phrase.isRead_call _ (by simpa using ⟨Phrase.isRead_names binders, induction⟩)
  | forSome binders body induction =>
      exact Phrase.isRead_call _ (by simpa using ⟨Phrase.isRead_names binders, induction⟩)

/-! ## Texts -/

section Texts

variable {texts : List String} {phrases : List Phrase}

theorem spells_commaSeparated
    (each : List.Forall₂ (fun text phrase => Spells text phrase.lexemes) texts phrases) :
    Spells (commaSeparated texts) (Phrase.listed phrases) := by
  intro rest lexemes ends scans
  induction each with
  | nil => simpa [commaSeparated, Phrase.listed] using scans
  | @cons text phrase texts phrases spells each induction =>
      cases each with
      | nil => simpa [commaSeparated, Phrase.listed] using spells rest lexemes ends scans
      | @cons next nextPhrase later laterPhrases _ _ =>
          have separated : (commaSeparated (text :: next :: later)).toList =
              text.toList ++ ',' :: ' ' :: (commaSeparated (next :: later)).toList := by
            simp [commaSeparated, String.toList_intercalate]
          rw [separated, Phrase.listed_cons_cons, List.append_assoc, List.append_assoc]
          exact spells _ _ (endsWord_cons (by decide)) induction.space.comma

theorem spells_renderCall {function : String} (identifier : IsIdentifier function)
    (each : List.Forall₂ (fun text phrase => Spells text phrase.lexemes) texts phrases) :
    Spells (renderCall function texts) (Phrase.call function phrases).lexemes := by
  intro rest lexemes ends scans
  have arguments := spells_commaSeparated each (')' :: rest) (.rightParen :: lexemes)
    (endsWord_cons (by decide)) scans.rightParen
  have whole := spells_name identifier _ _ (endsWord_cons (by decide)) arguments.leftParen
  simpa [renderCall, Phrase.call] using whole

theorem spells_renderVariables {binders : List String}
    (identifiers : ∀ name ∈ binders, IsIdentifier name) :
    Spells (renderVariables binders) (Phrase.bracketed (binders.map .name)).lexemes := by
  intro rest lexemes ends scans
  have names : List.Forall₂ (fun text phrase => Spells text phrase.lexemes) binders
      (binders.map Phrase.name) := by
    rw [List.forall₂_map_right_iff, List.forall₂_same]
    exact fun name member => spells_name (identifiers name member)
  have inner := spells_commaSeparated names (']' :: rest) (.rightBracket :: lexemes)
    (endsWord_cons (by decide)) scans.rightBracket
  simpa [renderVariables, Phrase.bracketed] using inner.leftBracket

end Texts

variable {usable : String → Prop} {bound : List String} {formula : Formula}

theorem Term.WellScoped.spells_render {term : Term} (wellScoped : term.WellScoped IsIdentifier bound) :
    Spells term.render term.phrase.lexemes :=
  spells_name wellScoped.usable_name

theorem Formula.WellScoped.spells_render (wellScoped : formula.WellScoped IsIdentifier bound) :
    Spells formula.render formula.phrase.lexemes := by
  induction wellScoped with
  | truth => exact spells_name (isIdentifier_keyword .truth)
  | falsity => exact spells_name (isIdentifier_keyword .falsity)
  | atom predicateWritten arguments =>
      apply spells_renderCall predicateWritten
      rw [List.forall₂_map_right_iff, List.forall₂_map_left_iff, List.forall₂_same]
      exact fun argument member => (arguments argument member).spells_render
  | equal leftScoped rightScoped =>
      intro rest lexemes ends scans
      have right := rightScoped.spells_render rest lexemes ends scans
      have whole := leftScoped.spells_render _ _ (endsWord_cons (by decide)) right.space.equal.space
      simpa [render, phrase, Phrase.equality, Term.phrase, Phrase.name] using whole
  | not _ induction =>
      exact spells_renderCall (isIdentifier_keyword .negation) (.cons induction .nil)
  | and _ induction =>
      rw [render, phrase, renderParts_eq_map, partsPhrases_eq_map]
      apply spells_renderCall (isIdentifier_keyword .conjunction)
      rw [List.forall₂_map_right_iff, List.forall₂_map_left_iff, List.forall₂_same]
      exact induction
  | or _ induction =>
      rw [render, phrase, renderParts_eq_map, partsPhrases_eq_map]
      apply spells_renderCall (isIdentifier_keyword .disjunction)
      rw [List.forall₂_map_right_iff, List.forall₂_map_left_iff, List.forall₂_same]
      exact induction
  | implies _ _ premiseInduction consequentInduction =>
      exact spells_renderCall (isIdentifier_keyword .implication)
        (.cons premiseInduction (.cons consequentInduction .nil))
  | forAll _ identifiers _ induction =>
      exact spells_renderCall (isIdentifier_keyword .universal)
        (.cons (spells_renderVariables identifiers) (.cons induction .nil))
  | forSome _ identifiers _ induction =>
      exact spells_renderCall (isIdentifier_keyword .existential)
        (.cons (spells_renderVariables identifiers) (.cons induction .nil))

/-! ## Expressions -/

theorem Formula.ofExpressions_eq_mapM (bound : List String) (expressions : List Expression) :
    ofExpressions bound expressions = expressions.mapM (Formula.ofExpression bound) := by
  induction expressions with
  | nil => rfl
  | cons expression expressions induction =>
      rw [ofExpressions, induction, List.mapM_cons]

theorem ofExpressions_eq_ok_iff {expressions : List Expression} {parts : List Formula} :
    Formula.ofExpressions bound expressions = .ok parts ↔
      List.Forall₂ (fun expression part => Formula.ofExpression bound expression = .ok part)
        expressions parts := by
  rw [Formula.ofExpressions_eq_mapM, mapM_eq_ok_iff]

theorem ofExpressions_of_means {parts : List Formula} {expressions : List Expression}
    (each : ∀ part ∈ parts, ∀ {expression : Expression}, part.phrase.Means expression →
      Formula.ofExpression bound expression = .ok part)
    (allMean : Phrase.AllMean (Formula.partsPhrases parts) expressions) :
    Formula.ofExpressions bound expressions = .ok parts := by
  rw [Formula.partsPhrases_eq_map] at allMean
  rw [ofExpressions_eq_ok_iff]
  refine List.Forall₂.flip (forall₂_imp_of_mem (List.forall₂_map_left_iff.mp allMean) ?_)
  exact fun part member _ meant => each part member meant

theorem Term.WellScoped.ofExpression {term : Term} {expression : Expression}
    (wellScoped : term.WellScoped IsUnreserved bound) (means : term.phrase.Means expression) :
    Term.ofExpression bound expression = .ok term := by
  obtain ⟨position, rfl⟩ := means
  have unreserved : isReserved term.name = false := wellScoped.usable_name
  rw [Term.ofExpression, unreserved]
  cases term with
  | constant name => simp [Term.name, wellScoped.2]
  | var name => simp [Term.name, wellScoped.2]

theorem boundNames_of_means {binders : List String} {expression : Expression}
    (nonempty : binders ≠ []) (unreserved : ∀ name ∈ binders, IsUnreserved name)
    (means : (Phrase.bracketed (binders.map .name)).Means expression) :
    boundNames expression = .ok binders := by
  obtain ⟨position, items, rfl, allMean⟩ := means
  have read : items.mapM boundName = .ok binders := by
    rw [mapM_eq_ok_iff]
    refine List.Forall₂.flip (forall₂_imp_of_mem (List.forall₂_map_left_iff.mp allMean) ?_)
    rintro name member _ ⟨itemPosition, rfl⟩
    have free : isReserved name = false := unreserved name member
    simp [flip, boundName, free]
  have someItem : items.isEmpty = false := by
    cases allMean' : items with
    | nil =>
        rw [allMean'] at allMean
        cases binders with
        | nil => exact absurd rfl nonempty
        | cons name binders => cases allMean
    | cons item items => rfl
  rw [boundNames, someItem]
  exact read

theorem Formula.WellScoped.ofExpression {expression : Expression}
    (wellScoped : formula.WellScoped IsUnreserved bound) (means : formula.phrase.Means expression) :
    Formula.ofExpression bound expression = .ok formula := by
  induction wellScoped generalizing expression with
  | truth =>
      obtain ⟨position, rfl⟩ := means
      rfl
  | falsity =>
      obtain ⟨position, rfl⟩ := means
      rfl
  | @atom bound predicate arguments unreserved argumentsScoped =>
      obtain ⟨position, terms, rfl, allMean⟩ := means
      have read : terms.mapM (Term.ofExpression bound) = .ok arguments := by
        rw [mapM_eq_ok_iff]
        refine List.Forall₂.flip (forall₂_imp_of_mem (List.forall₂_map_left_iff.mp allMean) ?_)
        exact fun argument member _ meant => (argumentsScoped argument member).ofExpression meant
      simp only [Formula.ofExpression, ofText?_eq_none_iff.mpr unreserved, read]
      rfl
  | equal leftScoped rightScoped =>
      obtain ⟨position, leftPosition, rightPosition, rfl⟩ := means
      rw [Formula.ofExpression, leftScoped.ofExpression ⟨leftPosition, rfl⟩,
        rightScoped.ofExpression ⟨rightPosition, rfl⟩]
      rfl
  | not _ induction =>
      obtain ⟨position, _, rfl, _ | ⟨meant, _ | _⟩⟩ := means
      simp only [Formula.ofExpression, Keyword.ofText?_text, induction meant]
      rfl
  | @and bound parts _ induction =>
      obtain ⟨position, expressions, rfl, allMean⟩ := means
      have read := ofExpressions_of_means induction allMean
      simp only [Formula.ofExpression, Keyword.ofText?_text, read]
      rfl
  | @or bound parts _ induction =>
      obtain ⟨position, expressions, rfl, allMean⟩ := means
      have read := ofExpressions_of_means induction allMean
      simp only [Formula.ofExpression, Keyword.ofText?_text, read]
      rfl
  | implies _ _ premiseInduction consequentInduction =>
      obtain ⟨position, _, rfl, _ | ⟨premiseMeant, _ | ⟨consequentMeant, _ | _⟩⟩⟩ := means
      simp only [Formula.ofExpression, Keyword.ofText?_text, premiseInduction premiseMeant,
        consequentInduction consequentMeant]
      rfl
  | forAll nonempty unreserved _ induction =>
      obtain ⟨position, _, rfl, _ | ⟨bindersMeant, _ | ⟨bodyMeant, _ | _⟩⟩⟩ := means
      simp only [Formula.ofExpression, Keyword.ofText?_text,
        boundNames_of_means nonempty unreserved bindersMeant, bind, Except.bind, induction bodyMeant]
      rfl
  | forSome nonempty unreserved _ induction =>
      obtain ⟨position, _, rfl, _ | ⟨bindersMeant, _ | ⟨bodyMeant, _ | _⟩⟩⟩ := means
      simp only [Formula.ofExpression, Keyword.ofText?_text,
        boundNames_of_means nonempty unreserved bindersMeant, bind, Except.bind, induction bodyMeant]
      rfl

/-! ## What is read -/

/-- A name that a formula read from these names may have. -/
def IsReadable (names : List String) (name : String) : Prop :=
  name ∈ names ∧ IsUnreserved name

/-- What the parts of a formula were read from: expressions with no other names than these. -/
def Formula.PartsRead (names bound : List String) : Formula → Prop
  | .truth => True
  | .falsity => True
  | .atom predicate arguments => IsReadable names predicate ∧
      ∃ terms, itemsNames terms ⊆ names ∧ terms.mapM (Term.ofExpression bound) = .ok arguments
  | .equal left right =>
      (∃ expression, expression.names ⊆ names ∧ Term.ofExpression bound expression = .ok left) ∧
        ∃ expression, expression.names ⊆ names ∧ Term.ofExpression bound expression = .ok right
  | .not operand => ∃ expression, expression.names ⊆ names ∧
      Formula.ofExpression bound expression = .ok operand
  | .and parts => ∃ expressions, itemsNames expressions ⊆ names ∧
      ofExpressions bound expressions = .ok parts
  | .or parts => ∃ expressions, itemsNames expressions ⊆ names ∧
      ofExpressions bound expressions = .ok parts
  | .implies premise consequent =>
      (∃ expression, expression.names ⊆ names ∧
        Formula.ofExpression bound expression = .ok premise) ∧
        ∃ expression, expression.names ⊆ names ∧
          Formula.ofExpression bound expression = .ok consequent
  | .forAll binders body | .forSome binders body =>
      (∃ expression, expression.names ⊆ names ∧ boundNames expression = .ok binders) ∧
        ∃ expression, expression.names ⊆ names ∧
          Formula.ofExpression (bound ++ binders) expression = .ok body

theorem Formula.partsRead_of_ofExpression {expression : Expression} {names : List String}
    (within : expression.names ⊆ names)
    (read : Formula.ofExpression bound expression = .ok formula) : formula.PartsRead names bound := by
  cases expression with
  | name position text =>
      rw [Formula.ofExpression] at read
      split at read
      · cases read; trivial
      · cases read; trivial
      · cases read
  | call position function arguments =>
      obtain ⟨functionWithin, argumentsWithin⟩ := List.cons_subset.mp within
      rw [Formula.ofExpression.eq_def] at read
      dsimp only at read
      split at read
      all_goals simp only [bind_eq_ok_iff, pure, Except.pure, Except.ok.injEq, reduceCtorEq] at read
      · obtain ⟨names, named, body, bodyRead, rfl⟩ := read
        simp only [itemsNames, List.append_nil, List.append_subset] at argumentsWithin
        exact ⟨⟨_, argumentsWithin.1, named⟩, _, argumentsWithin.2, bodyRead⟩
      · obtain ⟨names, named, body, bodyRead, rfl⟩ := read
        simp only [itemsNames, List.append_nil, List.append_subset] at argumentsWithin
        exact ⟨⟨_, argumentsWithin.1, named⟩, _, argumentsWithin.2, bodyRead⟩
      · obtain ⟨operand, operandRead, rfl⟩ := read
        simp only [itemsNames, List.append_nil] at argumentsWithin
        exact ⟨_, argumentsWithin, operandRead⟩
      · obtain ⟨premise, premiseRead, consequent, consequentRead, rfl⟩ := read
        simp only [itemsNames, List.append_nil, List.append_subset] at argumentsWithin
        exact ⟨⟨_, argumentsWithin.1, premiseRead⟩, _, argumentsWithin.2, consequentRead⟩
      · obtain ⟨parts, partsRead, rfl⟩ := read
        exact ⟨_, argumentsWithin, partsRead⟩
      · obtain ⟨parts, partsRead, rfl⟩ := read
        exact ⟨_, argumentsWithin, partsRead⟩
      · next isName =>
          obtain ⟨terms, termsRead, rfl⟩ := read
          exact ⟨⟨functionWithin, ofText?_eq_none_iff.mp isName⟩, _, argumentsWithin, termsRead⟩
  | compare position comparison left right =>
      obtain ⟨leftWithin, rightWithin⟩ := List.append_subset.mp within
      rw [Formula.ofExpression] at read
      simp only [bind_eq_ok_iff] at read
      obtain ⟨leftTerm, leftRead, rightTerm, rightRead, joined⟩ := read
      split at joined
      · cases joined
        exact ⟨⟨_, leftWithin, leftRead⟩, _, rightWithin, rightRead⟩
      · cases joined
        refine ⟨.compare position .equal left right, within, ?_⟩
        rw [Formula.ofExpression, leftRead, rightRead]
        rfl
      · cases joined
  | _ => cases read

theorem Term.wellScoped_of_ofExpression {term : Term} {expression : Expression} {names : List String}
    (within : expression.names ⊆ names) (read : Term.ofExpression bound expression = .ok term) :
    term.WellScoped (IsReadable names) bound := by
  cases expression with
  | name position text =>
      rw [Term.ofExpression] at read
      split at read
      · cases read
      · next unreserved =>
          rw [Bool.not_eq_true] at unreserved
          have readable : IsReadable names text := ⟨within List.mem_cons_self, unreserved⟩
          split at read
          · next isBound =>
              cases read
              exact ⟨readable, List.contains_iff_mem.mp isBound⟩
          · next isFree =>
              cases read
              exact ⟨readable, fun member => isFree (List.contains_iff_mem.mpr member)⟩
  | _ => cases read

theorem boundName_eq_ok {name : String} {expression : Expression}
    (read : boundName expression = .ok name) : IsReadable expression.names name := by
  cases expression with
  | name position text =>
      rw [boundName] at read
      split at read
      · cases read
      · next unreserved =>
          cases read
          exact ⟨List.mem_cons_self, eq_false_of_ne_true unreserved⟩
  | _ => cases read

theorem boundNames_eq_ok {binders : List String} {expression : Expression}
    (read : boundNames expression = .ok binders) :
    binders ≠ [] ∧ ∀ name ∈ binders, IsReadable expression.names name := by
  cases expression with
  | name position text =>
      rw [boundNames, bind_eq_ok_iff] at read
      obtain ⟨name, named, same⟩ := read
      cases same
      simpa using boundName_eq_ok named
  | list position items =>
      rw [boundNames] at read
      split at read
      · cases read
      · next someItem =>
          have each := mapM_eq_ok_iff.mp read
          constructor
          · rintro rfl
            cases each
            simp at someItem
          · intro name member
            obtain ⟨item, listed, named⟩ := exists_mem_left_of_forall₂ each member
            obtain ⟨inItem, unreserved⟩ := boundName_eq_ok named
            refine ⟨?_, unreserved⟩
            simpa [Expression.names] using ⟨item, listed, inItem⟩
  | _ => cases read

/-- A formula has only names of the expression that it is read from, none of them is reserved, and its
terms stand where their kind belongs. -/
theorem Formula.wellScoped_of_ofExpression {expression : Expression} {names : List String}
    (within : expression.names ⊆ names)
    (read : Formula.ofExpression bound expression = .ok formula) :
    formula.WellScoped (IsReadable names) bound := by
  -- The parts of a formula were read from parts of the expression, so the formula alone carries on.
  have partsRead := Formula.partsRead_of_ofExpression within read
  clear read within
  induction formula generalizing bound with
  | truth => exact .truth
  | falsity => exact .falsity
  | atom predicate arguments =>
      obtain ⟨readable, terms, within, termsRead⟩ := partsRead
      refine .atom readable fun argument member => ?_
      obtain ⟨term, listed, termRead⟩ :=
        exists_mem_left_of_forall₂ (mapM_eq_ok_iff.mp termsRead) member
      exact Term.wellScoped_of_ofExpression (names_subset_of_mem listed within) termRead
  | equal left right =>
      obtain ⟨⟨_, leftWithin, leftRead⟩, _, rightWithin, rightRead⟩ := partsRead
      exact .equal (Term.wellScoped_of_ofExpression leftWithin leftRead)
        (Term.wellScoped_of_ofExpression rightWithin rightRead)
  | not operand induction =>
      obtain ⟨_, within, operandRead⟩ := partsRead
      exact .not (induction (partsRead_of_ofExpression within operandRead))
  | and parts induction =>
      obtain ⟨_, within, each⟩ := partsRead
      refine .and fun part member => ?_
      obtain ⟨_, listed, partRead⟩ :=
        exists_mem_left_of_forall₂ (ofExpressions_eq_ok_iff.mp each) member
      exact induction part member
        (partsRead_of_ofExpression (names_subset_of_mem listed within) partRead)
  | or parts induction =>
      obtain ⟨_, within, each⟩ := partsRead
      refine .or fun part member => ?_
      obtain ⟨_, listed, partRead⟩ :=
        exists_mem_left_of_forall₂ (ofExpressions_eq_ok_iff.mp each) member
      exact induction part member
        (partsRead_of_ofExpression (names_subset_of_mem listed within) partRead)
  | implies premise consequent premiseInduction consequentInduction =>
      obtain ⟨⟨_, premiseWithin, premiseRead⟩, _, consequentWithin, consequentRead⟩ := partsRead
      exact .implies (premiseInduction (partsRead_of_ofExpression premiseWithin premiseRead))
        (consequentInduction (partsRead_of_ofExpression consequentWithin consequentRead))
  | forAll binders body induction =>
      obtain ⟨⟨_, bindersWithin, named⟩, _, bodyWithin, bodyRead⟩ := partsRead
      obtain ⟨nonempty, readable⟩ := boundNames_eq_ok named
      exact .forAll nonempty (fun name member => (readable name member).imp_left (bindersWithin ·))
        (induction (partsRead_of_ofExpression bodyWithin bodyRead))
  | forSome binders body induction =>
      obtain ⟨⟨_, bindersWithin, named⟩, _, bodyWithin, bodyRead⟩ := partsRead
      obtain ⟨nonempty, readable⟩ := boundNames_eq_ok named
      exact .forSome nonempty (fun name member => (readable name member).imp_left (bindersWithin ·))
        (induction (partsRead_of_ofExpression bodyWithin bodyRead))

/-- The names of a formula that is read are identifiers with no meaning of their own. -/
theorem Formula.isWellScoped_of_parse {text : String} (read : Formula.parse text = .ok formula) :
    formula.WellScoped (fun name => IsIdentifier name ∧ IsUnreserved name) [] := by
  obtain ⟨expression, expressionRead, formulaRead⟩ := bind_eq_ok_iff.mp read
  refine (wellScoped_of_ofExpression (List.Subset.refl _) formulaRead).imp fun name readable => ?_
  exact readable.imp_left (isIdentifier_of_parseExpression expressionRead name)

theorem Formula.wellScoped_of_parse {text : String} (read : Formula.parse text = .ok formula) :
    formula.WellScoped IsUnreserved [] :=
  (isWellScoped_of_parse read).imp fun _ usable => usable.2

/-! ## Reading back -/

theorem Formula.parse_render
    (wellScoped : formula.WellScoped (fun name => IsIdentifier name ∧ IsUnreserved name) []) :
    Formula.parse formula.render = .ok formula := by
  obtain ⟨tokens, scanned, spelled⟩ := (wellScoped.imp fun _ usable => usable.1).spells_render.scan
  obtain ⟨expression, derives, means⟩ := formula.isRead_phrase tokens spelled
  have parsed : parseExpression formula.render = .ok expression :=
    parseExpression_eq_ok_iff.mpr ⟨tokens, scanned, derives⟩
  rw [Formula.parse, parsed]
  exact (wellScoped.imp fun _ usable => usable.2).ofExpression means

end Ergo
