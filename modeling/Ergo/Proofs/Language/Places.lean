import Ergo.Proofs.Language.Derivation
import Ergo.Proofs.Language.Scanning
import Ergo.Proofs.Text.Places

/-!
Places of tokens, expressions and errors. Each stands in its text, and what it quotes of the text is
written there: a token with its name, every node of an expression (`Expression.StandsIn`), and the errors
of the scanner and of the readers of tokens, which are at a token or at the end of the text.
-/

namespace Ergo.Language

open Ergo.Text

/-! ## What is quoted -/

/-- The beginning of what is written where a name or a comparison stands. -/
def Lexeme.written : Lexeme → String
  | .name text => text
  | .compare .equal => "="
  | .compare comparison => comparison.symbol
  | _ => ""

/-- What an error quotes of the text at its position. What is wrong with a declaration is reported where
its operands begin, so neither its keyword nor a word of theirs is such a quote. -/
def Fault.quoted : Fault → String
  | .unexpectedCharacter char => String.ofList [char]
  | .invalidNumber text | .numberOutOfRange text => text
  | .keywordAsTerm word | .keywordAsFunction word | .keywordAsNumber word => word
  | .termAsFormula name | .notNumericFunction name | .unknownFunction name => name
  | .wrongOperands name _ | .wrongArgumentCount name _ => name
  | .orderBetweenObjects comparison => (Lexeme.compare comparison).written
  | .unknownKeyword keyword => keyword
  | _ => ""

def Token.StandsIn (chars : List Char) (token : Token) : Prop :=
  StandsAt chars token.lexeme.written.toList token.position

def ParseError.StandsIn (chars : List Char) (error : ParseError) : Prop :=
  StandsAt chars error.fault.quoted.toList error.position

/-- Every node of the expression stands in the text, where a name, a called function or a comparison is
written. -/
inductive Expression.StandsIn (chars : List Char) : Expression → Prop
  | name {position text} : StandsAt chars text.toList position → StandsIn chars (.name position text)
  | number {position value} : StandsAt chars [] position → StandsIn chars (.number position value)
  | list {position items} : StandsAt chars [] position → (∀ item ∈ items, StandsIn chars item) →
      StandsIn chars (.list position items)
  | call {position function arguments} : StandsAt chars function.toList position →
      (∀ argument ∈ arguments, StandsIn chars argument) →
      StandsIn chars (.call position function arguments)
  | negate {position operand} : StandsAt chars [] position → StandsIn chars operand →
      StandsIn chars (.negate position operand)
  | operate {position operator left right} : StandsAt chars [] position → StandsIn chars left →
      StandsIn chars right → StandsIn chars (.operate position operator left right)
  | compare {position comparison left right} :
      StandsAt chars (Lexeme.compare comparison).written.toList position → StandsIn chars left →
      StandsIn chars right → StandsIn chars (.compare position comparison left right)

section Standing

variable {chars : List Char}

theorem Expression.StandsIn.place {expression : Expression} (stands : expression.StandsIn chars) :
    StandsAt chars [] expression.position := by
  cases stands with
  | name placed | number placed | list placed _ | call placed _ | negate placed _
  | operate placed _ _ | compare placed _ _ => exact placed.place

theorem CommaSeparated.subset {parts : List (List Token)} {tokens part : List Token}
    (separated : CommaSeparated parts tokens) (member : part ∈ parts) : part ⊆ tokens := by
  induction separated with
  | nothing => cases member
  | single only =>
      rw [List.mem_singleton.mp member]
      exact List.Subset.refl _
  | cons position _ induction =>
      rcases List.mem_cons.mp member with rfl | later
      · exact List.subset_append_left _ _
      · exact List.subset_append_of_subset_right _ (List.subset_cons_of_subset _ (induction later))

theorem CommaSeparated.forall_mem_of_piece {pieces : List (List Token × Expression)}
    {tokens : List Token} {stands : Token → Prop} {piece : List Token × Expression}
    (separated : CommaSeparated (pieces.map Prod.fst) tokens) (each : ∀ token ∈ tokens, stands token)
    (member : piece ∈ pieces) : ∀ token ∈ piece.1, stands token :=
  fun token inPiece => each token (separated.subset (List.mem_map_of_mem member) inPiece)

/-- An expression stands in a text in which the tokens stand that it derives from. -/
theorem Derives.standsIn {level : Level} {tokens : List Token} {expression : Expression}
    (derives : Derives level tokens expression) (each : ∀ token ∈ tokens, token.StandsIn chars) :
    expression.StandsIn chars := by
  induction derives with
  | compare comparison position _ _ leftInduction rightInduction =>
      rw [List.forall_mem_append, List.forall_mem_cons] at each
      obtain ⟨leftStands, sign, rightStands⟩ := each
      exact .compare sign (leftInduction leftStands) (rightInduction rightStands)
  | operate operator position _ _ leftInduction rightInduction =>
      rw [List.forall_mem_append, List.forall_mem_cons] at each
      obtain ⟨leftStands, sign, rightStands⟩ := each
      exact .operate sign.place (leftInduction leftStands) (rightInduction rightStands)
  | ofSum _ induction | ofProduct _ induction | ofUnary _ induction => exact induction each
  | negate position _ induction =>
      obtain ⟨sign, operandStands⟩ := List.forall_mem_cons.mp each
      exact .negate sign.place (induction operandStands)
  | number position value => exact .number (each _ List.mem_cons_self).place
  | name position text => exact .name (each _ List.mem_cons_self)
  | call function position opening closing _ separated induction =>
      rw [List.forall_mem_cons, List.forall_mem_cons, List.forall_mem_append] at each
      obtain ⟨name, -, inside, -⟩ := each
      refine .call name (List.forall_mem_map.mpr fun piece member => ?_)
      exact induction piece member (separated.forall_mem_of_piece inside member)
  | parenthesized opening closing _ induction =>
      rw [List.forall_mem_cons, List.forall_mem_append] at each
      exact induction each.2.1
  | list position closing _ separated induction =>
      rw [List.forall_mem_cons, List.forall_mem_append] at each
      obtain ⟨bracket, inside, -⟩ := each
      refine .list bracket.place (List.forall_mem_map.mpr fun piece member => ?_)
      exact induction piece member (separated.forall_mem_of_piece inside member)

theorem DerivesEach.standsIn {tokens : List Token} {expressions : List Expression}
    (derives : DerivesEach tokens expressions) (each : ∀ token ∈ tokens, token.StandsIn chars) :
    ∀ expression ∈ expressions, expression.StandsIn chars := by
  obtain ⟨pieces, piecesDerive, separated, rfl⟩ := derives
  rw [List.forall_mem_map]
  exact fun piece member =>
    (piecesDerive piece member).standsIn (separated.forall_mem_of_piece each member)

end Standing

/-! ## Scanning -/

section Scanning

variable {before later chars : List Char} {char : Char} {position : Nat}

theorem ascii_of_isSpace (space : isSpace char = true) : char.toNat ≤ 0x7F := by
  simp only [isSpace, Bool.or_eq_true, beq_iff_eq] at space
  rcases space with (((rfl | rfl) | rfl) | rfl) | rfl <;> decide

theorem ascii_of_isNumberPart (inNumber : isNumberPart char = true) : char.toNat ≤ 0x7F := by
  simp only [isNumberPart, Bool.or_eq_true, isDigit_iff, beq_iff_eq] at inNumber
  rcases inNumber with digit | rfl
  · omega
  · decide

theorem ascii_of_isNamePart (inName : isNamePart char = true) : char.toNat ≤ 0x7F :=
  (toNat_of_isNamePart inName).2.trans (by decide)

theorem quoted_of_readNumber {digits : List Char} {fault : Fault}
    (refused : readNumber digits = .error fault) : fault.quoted = String.ofList digits := by
  rw [readNumber] at refused
  dsimp only at refused
  split at refused
  · cases refused
    rfl
  · split at refused <;> cases refused
    rfl

/-- A sign is made of the characters that it takes, and begins with what is quoted of it. -/
theorem exists_mark_of_sign? {lexeme : Lexeme} {width : Nat}
    (isSign : sign? char chars = some (lexeme, width)) :
    ∃ mark, char :: chars = mark ++ chars.drop (width - 1) ∧ mark.length = width ∧
      (∀ char ∈ mark, char.toNat ≤ 0x7F) ∧ lexeme.written.toList <+: mark := by
  have marks : width = 1 ∧ char.toNat ≤ 0x7F ∧ lexeme.written.toList <+: [char] ∨
      width = 2 ∧ char.toNat ≤ 0x7F ∧ chars.head? = some '=' ∧
        lexeme.written.toList <+: [char, '='] := by
    unfold sign? at isSign
    cases followed : chars.head? == some '=' with
    | false =>
        simp only [followed, Bool.false_eq_true, if_false] at isSign
        left
        split at isSign <;> cases isSign <;> decide
    | true =>
        have isEqual : chars.head? = some '=' := beq_iff_eq.mp followed
        simp only [followed, if_true] at isSign
        simp only [isEqual, true_and]
        split at isSign <;> cases isSign <;> decide
  rcases marks with ⟨rfl, ascii, begins⟩ | ⟨rfl, ascii, followed, begins⟩
  · exact ⟨[char], by simp, rfl, by simpa using ascii, begins⟩
  · obtain ⟨later, rfl⟩ := List.head?_eq_some_iff.mp followed
    exact ⟨[char, '='], by simp, rfl, by simpa using ascii, begins⟩

/-- Tokens, or the error in their place, stand in the text. -/
def ScansIn (chars : List Char) : Except ParseError (List Token) → Prop :=
  Meets (fun tokens => ∀ token ∈ tokens, token.StandsIn chars) (·.StandsIn chars)

theorem ScansIn.cons {mark : List Char} {lexeme : Lexeme} {result : Except ParseError (List Token)}
    (scans : ScansIn (before ++ mark ++ later) result) (begins : lexeme.written.toList <+: mark) :
    ScansIn (before ++ mark ++ later) (result.map (⟨lexeme, byteLength before⟩ :: ·)) :=
  Meets.map scans fun _ each =>
    List.forall_mem_cons.mpr ⟨(standsAt_append before mark later).shorten begins, each⟩

theorem append_cons_takeWhile_dropWhile (before : List Char) (keep : Char → Bool) (char : Char)
    (rest : List Char) :
    before ++ char :: rest = before ++ (char :: rest.takeWhile keep) ++ rest.dropWhile keep := by
  rw [List.append_assoc, List.cons_append, List.takeWhile_append_dropWhile]

theorem ascii_of_run {keep : Char → Bool} (rest : List Char) (first : char.toNat ≤ 0x7F)
    (ascii : ∀ other, keep other = true → other.toNat ≤ 0x7F) :
    ∀ other ∈ char :: rest.takeWhile keep, other.toNat ≤ 0x7F :=
  List.forall_mem_cons.mpr ⟨first, fun other member => ascii other (List.mem_takeWhile_imp member)⟩

/-- What follows `before` in a text is scanned with positions in the whole text. -/
theorem scansIn_scanFrom (before : List Char) {position : Nat} (reached : byteLength before = position)
    (chars : List Char) : ScansIn (before ++ chars) (scanFrom position chars) := by
  -- What was passed over is ASCII, so its characters count as bytes.
  have behind : ∀ {mark : List Char}, (∀ char ∈ mark, char.toNat ≤ 0x7F) →
      ∀ {before position}, byteLength before = position →
        byteLength (before ++ mark) = position + mark.length := by
    intro mark ascii before position reached
    rw [byteLength_append, byteLength_eq_length ascii, reached]
  fun_induction scanFrom position chars generalizing before
  case case1 => exact List.forall_mem_nil _
  case case2 position char rest space induction =>
    have ascii : ∀ other ∈ [char], other.toNat ≤ 0x7F := by
      simpa using ascii_of_isSpace space
    simpa using induction _ (behind ascii reached)
  case case3 position char rest _ inNumber digits fault refused =>
    rw [append_cons_takeWhile_dropWhile before isNumberPart, ← reached]
    change StandsAt _ fault.quoted.toList _
    rw [quoted_of_readNumber refused, String.toList_ofList]
    exact standsAt_append _ _ _
  case case4 position char rest _ inNumber digits value _ induction =>
    have reaches := behind (ascii_of_run rest (ascii_of_isNumberPart inNumber)
      fun _ => ascii_of_isNumberPart) reached
    rw [append_cons_takeWhile_dropWhile before isNumberPart, ← reached]
    exact (reached ▸ induction _ reaches).cons List.nil_prefix
  case case5 position char rest _ _ starts word induction =>
    have reaches := behind (ascii_of_run rest (ascii_of_isNamePart (isNamePart_of_isNameStart starts))
      fun _ => ascii_of_isNamePart) reached
    rw [append_cons_takeWhile_dropWhile before isNamePart, ← reached]
    have same : (Lexeme.name (String.ofList word)).written.toList = word := String.toList_ofList
    exact (reached ▸ induction _ reaches).cons ⟨[], by rw [same, List.append_nil]⟩
  case case6 position char rest _ _ _ _ =>
    rw [← List.singleton_append, ← List.append_assoc, ← reached]
    change StandsAt _ (String.ofList [char]).toList _
    rw [String.toList_ofList]
    exact standsAt_append _ _ _
  case case7 position char rest _ _ _ lexeme width isSign induction =>
    obtain ⟨mark, same, rfl, ascii, begins⟩ := exists_mark_of_sign? isSign
    rw [same, ← List.append_assoc, ← reached]
    exact (reached ▸ induction _ (behind ascii reached)).cons begins

theorem scansIn_scan (text : String) : ScansIn text.toList (scan text) :=
  scansIn_scanFrom [] rfl text.toList

end Scanning

/-! ## Reading -/

section Reading

variable {value : Type} {stop power : Nat} {tokens rest : List Token}

/-- The error is at a token or at the end of the text, and quotes nothing. -/
structure ParseError.IsAt (stop : Nat) (tokens : List Token) (error : ParseError) : Prop where
  position : error.position ∈ stop :: tokens.map Token.position
  quoted : error.fault.quoted = ""

theorem ParseError.IsAt.of_suffix {error : ParseError} (isAt : error.IsAt stop rest)
    (suffix : rest <:+ tokens) : error.IsAt stop tokens :=
  ⟨List.cons_subset_cons stop (suffix.map Token.position).subset isAt.position, isAt.quoted⟩

theorem ParseError.IsAt.standsIn {chars : List Char} {error : ParseError}
    (isAt : error.IsAt (byteLength chars) tokens) (each : ∀ token ∈ tokens, token.StandsIn chars) :
    error.StandsIn chars := by
  rw [StandsIn, isAt.quoted]
  rcases List.mem_cons.mp isAt.position with same | atToken
  · rw [same]
    exact standsAt_end chars
  · obtain ⟨token, member, same⟩ := List.mem_map.mp atToken
    rw [← same]
    exact (each token member).place

theorem isAt_end {fault : Fault} (quotesNothing : fault.quoted = "") :
    ParseError.IsAt stop tokens ⟨stop, fault⟩ :=
  ⟨List.mem_cons_self, quotesNothing⟩

theorem isAt_first {lexeme : Lexeme} {position : Nat} {fault : Fault}
    (quotesNothing : fault.quoted = "") :
    ParseError.IsAt stop (⟨lexeme, position⟩ :: tokens) ⟨position, fault⟩ :=
  ⟨by simp, quotesNothing⟩

/-- The tokens that are left are the last ones, and an error is at one of the tokens or behind them. -/
def ReadsWithin {Left : List Token → Prop} (stop : Nat) (tokens : List Token) :
    Except ParseError (value × { rest : List Token // Left rest }) → Prop :=
  Meets (fun read => read.2.val <:+ tokens) (·.IsAt stop tokens)

theorem ReadsWithin.of_suffix {Left : List Token → Prop}
    {result : Except ParseError (value × { rest : List Token // Left rest })}
    (within : ReadsWithin stop rest result) (suffix : rest <:+ tokens) :
    ReadsWithin stop tokens result :=
  Meets.imp within (fun _ later => later.trans suffix) fun _ isAt => isAt.of_suffix suffix

theorem meets_close (bracket : Bracket) (suffix : rest <:+ tokens) :
    Meets (fun left => left.val <:+ tokens) (·.IsAt stop tokens) (close stop bracket rest) := by
  cases rest with
  | nil => exact isAt_end rfl
  | cons token later =>
      rw [close]
      split
      · exact (List.suffix_cons token later).trans suffix
      · exact (isAt_first rfl).of_suffix suffix

theorem chained?_mem {joint : Joint} {position : Nat} (chained : joint.chained? tokens = some position) :
    position ∈ tokens.map Token.position := by
  unfold Joint.chained? at chained
  split at chained
  · cases chained
    exact List.mem_cons_self
  · cases chained

end Reading

mutual
theorem readsWithin_expressionFrom (stop power : Nat) (tokens : List Token) :
    ReadsWithin stop tokens (expressionFrom stop power tokens) := by
  rw [expressionFrom]
  refine Meets.bind (readsWithin_operandFrom stop tokens) ?_
  rintro ⟨first, afterFirst, shorter⟩ suffix
  refine Meets.bind ((readsWithin_joinedFrom stop power first afterFirst).of_suffix suffix) ?_
  exact fun _ later => later
termination_by (tokens.length, 1)

theorem readsWithin_joinedFrom (stop power : Nat) (left : Expression) (tokens : List Token) :
    ReadsWithin stop tokens (joinedFrom stop power left tokens) := by
  cases tokens with
  | nil =>
      rw [joinedFrom]
      exact List.suffix_refl _
  | cons token operand =>
      obtain ⟨lexeme, position⟩ := token
      rw [joinedFrom]
      split
      · exact List.suffix_refl _
      · next joint isJoint =>
          split
          · exact List.suffix_refl _
          · have behind := List.suffix_cons (⟨lexeme, position⟩ : Token) operand
            refine Meets.bind
              ((readsWithin_expressionFrom stop joint.rightPower operand).of_suffix behind) ?_
            rintro ⟨right, afterRight, shorter⟩ suffix
            dsimp only
            split
            · next chained isChained =>
                have atChained : ParseError.IsAt stop afterRight ⟨chained, .chainedComparison⟩ :=
                  ⟨List.mem_cons_of_mem _ (chained?_mem isChained), rfl⟩
                exact atChained.of_suffix suffix
            · refine Meets.bind ((readsWithin_joinedFrom stop power
                (joint.join position left right) afterRight).of_suffix suffix) ?_
              exact fun _ later => later
termination_by (tokens.length, 0)

theorem readsWithin_operandFrom (stop : Nat) (tokens : List Token) :
    ReadsWithin stop tokens (operandFrom stop tokens) := by
  rw [operandFrom.eq_def]
  split
  · exact isAt_end rfl
  · exact List.suffix_cons _ _
  · next function position opening operands =>
      have behind : operands <:+ ⟨.name function, position⟩ :: ⟨.leftParen, opening⟩ :: operands :=
        List.suffix_append [_, _] operands
      refine Meets.bind ((readsWithin_enclosed stop .round operands).of_suffix behind) ?_
      exact fun _ later => later
  · exact List.suffix_cons _ _
  · next opening operand =>
      have behind := List.suffix_cons (⟨.leftParen, opening⟩ : Token) operand
      refine Meets.bind ((readsWithin_expressionFrom stop 0 operand).of_suffix behind) ?_
      rintro ⟨inner, afterInner, shorter⟩ suffix
      exact Meets.bind (meets_close .round suffix) fun _ later => later
  · next position operands =>
      have behind := List.suffix_cons (⟨.leftBracket, position⟩ : Token) operands
      refine Meets.bind ((readsWithin_enclosed stop .square operands).of_suffix behind) ?_
      exact fun _ later => later
  · next position operand =>
      have behind := List.suffix_cons (⟨.minus, position⟩ : Token) operand
      refine Meets.bind ((readsWithin_expressionFrom stop negativePower operand).of_suffix behind) ?_
      exact fun _ later => later
  · exact isAt_first rfl
termination_by (tokens.length, 0)

theorem readsWithin_enclosed (stop : Nat) (bracket : Bracket) (tokens : List Token) :
    ReadsWithin stop tokens (enclosed stop bracket tokens) := by
  rw [enclosed]
  split
  · next left closed => exact (meets_close bracket (List.suffix_refl _)).of_eq_ok closed
  · refine Meets.bind (readsWithin_elements stop tokens) ?_
    rintro ⟨items, afterItems, shorter⟩ suffix
    exact Meets.bind (meets_close bracket suffix) fun _ later => later
termination_by (tokens.length, 3)

theorem readsWithin_elements (stop : Nat) (tokens : List Token) :
    ReadsWithin stop tokens (elements stop tokens) := by
  rw [elements]
  refine Meets.bind (readsWithin_expressionFrom stop 0 tokens) ?_
  rintro ⟨first, afterFirst, shorter⟩ suffix
  dsimp only
  split
  · next position more shorter =>
      have moreShorter : more.length < tokens.length := Nat.lt_of_succ_lt shorter
      have behind := (List.suffix_cons _ more).trans suffix
      exact Meets.bind ((readsWithin_elements stop more).of_suffix behind) fun _ later => later
  · exact suffix
termination_by (tokens.length, 2)
end

/-! ## Whole texts -/

theorem meets_finish {value : Type} {stop : Nat} {tokens rest : List Token} (read : value)
    (suffix : rest <:+ tokens) :
    Meets (fun _ => True) (·.IsAt stop tokens) (finish read rest) := by
  cases rest with
  | nil => trivial
  | cons token later => exact (isAt_first rfl).of_suffix suffix

theorem meets_readExpression (stop : Nat) (tokens : List Token) :
    Meets (fun _ => True) (·.IsAt stop tokens) (readExpression stop tokens) :=
  Meets.bind (readsWithin_expressionFrom stop 0 tokens) fun read suffix => meets_finish read.1 suffix

theorem meets_readExpressions (stop : Nat) {tokens : List Token} (someToken : tokens ≠ []) :
    Meets (fun _ => True) (·.IsAt stop tokens) (readExpressions stop tokens) := by
  rw [readExpressions, if_neg (by simpa using someToken)]
  exact Meets.bind (readsWithin_elements stop tokens) fun read suffix => meets_finish read.1 suffix

/-- What is read from a text stands in it, as does the error if it is refused. -/
theorem meets_parseExpression (text : String) :
    Meets (·.StandsIn text.toList) (·.StandsIn text.toList) (parseExpression text) := by
  refine Meets.bind (scansIn_scan text) fun tokens each => ?_
  cases read : readExpression (endOf text) tokens with
  | error error => exact ((meets_readExpression _ _).of_eq_error read).standsIn each
  | ok expression => exact (readExpression_eq_ok_iff.mp read).standsIn each

theorem meets_parseExpressions (text : String) :
    Meets (fun expressions => ∀ expression ∈ expressions, expression.StandsIn text.toList)
      (·.StandsIn text.toList) (parseExpressions text) := by
  refine Meets.bind (scansIn_scan text) fun tokens each => ?_
  cases read : readExpressions (endOf text) tokens with
  | error error =>
      by_cases someToken : tokens = []
      · subst someToken
        cases read
        exact standsAt_zero _
      · exact ((meets_readExpressions _ someToken).of_eq_error read).standsIn each
  | ok expressions => exact (readExpressions_eq_ok_iff.mp read).2.standsIn each

end Ergo.Language
