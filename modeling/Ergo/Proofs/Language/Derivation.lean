import Ergo.Proofs.Language.Reading

/-!
The grammar of expressions. A comparison is one sum or two with a sign between them, sums join
products and products join unary expressions from left to right, and a unary expression is a name, a
number, a call, a bracketed expression, a list or the negative of a unary expression. Tokens are read
as an expression exactly if they derive from the grammar, and as the expression of that derivation
(`readExpression_eq_ok_iff`).
-/

namespace Ergo.Language

/-! ## The grammar -/

inductive Level
  | comparison
  | sum
  | product
  | unary
  deriving DecidableEq, Repr

def Operator.lexeme : Operator → Lexeme
  | .add => .plus
  | .subtract => .minus
  | .multiply => .star
  | .divide => .slash

/-- The level of what an operator makes, and of its left operand. -/
def Operator.level : Operator → Level
  | .add | .subtract => .sum
  | .multiply | .divide => .product

def Operator.rightLevel : Operator → Level
  | .add | .subtract => .product
  | .multiply | .divide => .unary

/-- The tokens of all parts, with one comma between each two. -/
inductive CommaSeparated : List (List Token) → List Token → Prop
  | nothing : CommaSeparated [] []
  | single (part : List Token) : CommaSeparated [part] part
  | cons {part next later tokens} (position : Nat) : CommaSeparated (next :: later) tokens →
      CommaSeparated (part :: next :: later) (part ++ ⟨.comma, position⟩ :: tokens)

inductive Derives : Level → List Token → Expression → Prop
  | compare {left right leftTokens rightTokens} (comparison : Comparison) (position : Nat) :
      Derives .sum leftTokens left → Derives .sum rightTokens right →
      Derives .comparison (leftTokens ++ ⟨.compare comparison, position⟩ :: rightTokens)
        (.compare position comparison left right)
  | ofSum {tokens expression} : Derives .sum tokens expression →
      Derives .comparison tokens expression
  | operate {left right leftTokens rightTokens} (operator : Operator) (position : Nat) :
      Derives operator.level leftTokens left → Derives operator.rightLevel rightTokens right →
      Derives operator.level (leftTokens ++ ⟨operator.lexeme, position⟩ :: rightTokens)
        (.operate position operator left right)
  | ofProduct {tokens expression} : Derives .product tokens expression →
      Derives .sum tokens expression
  | ofUnary {tokens expression} : Derives .unary tokens expression →
      Derives .product tokens expression
  | negate {tokens expression} (position : Nat) : Derives .unary tokens expression →
      Derives .unary (⟨.minus, position⟩ :: tokens) (.negate position expression)
  | number (position : Nat) (value : Rat) :
      Derives .unary [⟨.number value, position⟩] (.number position value)
  | name (position : Nat) (text : String) :
      Derives .unary [⟨.name text, position⟩] (.name position text)
  | call {pieces : List (List Token × Expression)} {tokens} (function : String)
      (position opening closing : Nat) :
      (∀ piece ∈ pieces, Derives .comparison piece.1 piece.2) →
      CommaSeparated (pieces.map Prod.fst) tokens →
      Derives .unary
        (⟨.name function, position⟩ :: ⟨.leftParen, opening⟩ :: (tokens ++ [⟨.rightParen, closing⟩]))
        (.call position function (pieces.map Prod.snd))
  | parenthesized {tokens expression} (opening closing : Nat) : Derives .comparison tokens expression →
      Derives .unary (⟨.leftParen, opening⟩ :: (tokens ++ [⟨.rightParen, closing⟩])) expression
  | list {pieces : List (List Token × Expression)} {tokens} (position closing : Nat) :
      (∀ piece ∈ pieces, Derives .comparison piece.1 piece.2) →
      CommaSeparated (pieces.map Prod.fst) tokens →
      Derives .unary (⟨.leftBracket, position⟩ :: (tokens ++ [⟨.rightBracket, closing⟩]))
        (.list position (pieces.map Prod.snd))

/-- The expressions derive from the tokens between the commas, in their order. -/
def DerivesEach (tokens : List Token) (expressions : List Expression) : Prop :=
  ∃ pieces : List (List Token × Expression),
    (∀ piece ∈ pieces, Derives .comparison piece.1 piece.2) ∧
      CommaSeparated (pieces.map Prod.fst) tokens ∧ pieces.map Prod.snd = expressions

theorem DerivesEach.single {tokens : List Token} {expression : Expression}
    (derives : Derives .comparison tokens expression) : DerivesEach tokens [expression] :=
  ⟨[(tokens, expression)], by simpa using derives, .single tokens, rfl⟩

theorem DerivesEach.cons {own tokens : List Token} {expression : Expression}
    {expressions : List Expression} (each : DerivesEach tokens expressions) (position : Nat)
    (nonempty : expressions ≠ []) (derives : Derives .comparison own expression) :
    DerivesEach (own ++ ⟨.comma, position⟩ :: tokens) (expression :: expressions) := by
  obtain ⟨pieces, eachDerives, separated, rfl⟩ := each
  refine ⟨(own, expression) :: pieces, List.forall_mem_cons.mpr ⟨derives, eachDerives⟩, ?_, rfl⟩
  cases pieces with
  | nil => exact absurd rfl nonempty
  | cons piece pieces => exact .cons position separated

/-! ## Levels and powers -/

section Readings

/-- The greatest power at which something of the level is read as a whole. -/
def Level.power : Level → Nat
  | .comparison => 1
  | .sum => 3
  | .product => 5
  | .unary => negativePower

variable {level other : Level} {stop power : Nat} {tokens rest : List Token}
  {expression : Expression}

/-- What is of a level is of every level of less power. -/
theorem Derives.weaken (derives : Derives level tokens expression)
    (below : other.power ≤ level.power) : Derives other tokens expression := by
  cases level <;> cases other <;> first
    | exact absurd below (by decide)
    | exact derives
    | exact derives.ofUnary
    | exact derives.ofProduct
    | exact derives.ofSum
    | exact derives.ofUnary.ofProduct
    | exact derives.ofProduct.ofSum
    | exact derives.ofUnary.ofProduct.ofSum

theorem Derives.ofAny (derives : Derives level tokens expression) :
    Derives .comparison tokens expression :=
  derives.weaken (by cases level <;> decide)

theorem Operator.power_level (operator : Operator) :
    operator.level.power = (Joint.operate operator).leftPower := by
  cases operator <;> rfl

theorem Joint.leftPower_lt (joint : Joint) : joint.leftPower < negativePower := by
  cases joint with
  | compare comparison => exact (by decide : 1 < 7)
  | operate operator => cases operator <;> decide

theorem Joint.rightPower_le (joint : Joint) : joint.rightPower ≤ negativePower := by
  cases joint with
  | compare comparison => exact (by decide : 2 ≤ 7)
  | operate operator => cases operator <;> decide

/-- What is read as the right operand of an operator is of the level that the grammar asks for. -/
theorem Operator.power_rightLevel_le {operator : Operator}
    (strong : (Joint.operate operator).rightPower ≤ level.power) :
    operator.rightLevel.power ≤ level.power := by
  cases operator <;> cases level <;> first | decide | exact absurd strong (by decide)

theorem Operator.rightPower_le_rightLevel (operator : Operator) :
    (Joint.operate operator).rightPower ≤ operator.rightLevel.power := by
  cases operator <;> decide

/-- The tokens do not begin with a joint that something of the level would have been read past. -/
def EndsAfter (level : Level) (tokens : List Token) : Prop :=
  EndsAt (if level = .comparison then 0 else level.power + 1) tokens

theorem endsAfter_unary : EndsAfter .unary tokens := by
  intro token _ joint _
  have bound := joint.leftPower_lt
  simp only [reduceCtorEq, if_false, Level.power]
  omega

theorem EndsAt.mono {larger : Nat} (ends : EndsAt power tokens) (le : power ≤ larger) :
    EndsAt larger tokens :=
  fun token isFirst joint isJoint => Nat.lt_of_lt_of_le (ends token isFirst joint isJoint) le

/-! ## What is read derives -/

/-- Some first tokens derive an expression of at least this power, and no joint of it follows. -/
def ReadsDerived (power : Nat) (tokens : List Token) (expression : Expression) (rest : List Token) :
    Prop :=
  ∃ level own, tokens = own ++ rest ∧ power ≤ level.power ∧ Derives level own expression ∧
    EndsAt power rest

theorem joint_cases {joint : Joint} {lexeme : Lexeme} (isJoint : lexeme.joint? = some joint) :
    (∃ comparison, joint = .compare comparison ∧ lexeme = .compare comparison) ∨
      ∃ operator : Operator, joint = .operate operator ∧ lexeme = operator.lexeme := by
  cases lexeme <;> simp only [Lexeme.joint?, Option.some.injEq, reduceCtorEq] at isJoint <;>
    subst isJoint
  case compare comparison => exact .inl ⟨comparison, rfl, rfl⟩
  case plus => exact .inr ⟨.add, rfl, rfl⟩
  case minus => exact .inr ⟨.subtract, rfl, rfl⟩
  case star => exact .inr ⟨.multiply, rfl, rfl⟩
  case slash => exact .inr ⟨.divide, rfl, rfl⟩

/-- A comparison is followed by no joint, since it would be a second comparison. -/
theorem endsAt_zero_of_single {comparison : Comparison}
    (ends : EndsAt (Joint.compare comparison).rightPower tokens)
    (single : (Joint.compare comparison).chained? tokens = none) : EndsAt 0 tokens := by
  cases tokens with
  | nil => simp [EndsAt]
  | cons token tokens =>
      obtain ⟨lexeme, position⟩ := token
      rw [endsAt_cons_iff] at ends ⊢
      intro joint isJoint
      have weak := ends joint isJoint
      rcases joint_cases isJoint with ⟨other, rfl, rfl⟩ | ⟨operator, rfl, rfl⟩
      · simp [Joint.chained?] at single
      · cases operator <;> simp [Joint.leftPower, Joint.rightPower] at weak

/-- An expression of a level and what is joined to it make an expression of the joint's level. -/
theorem Derives.join {left right : Expression} {own rightTokens afterRight : List Token}
    {lexeme : Lexeme} {position : Nat} {joint : Joint} {rightLevel : Level}
    (leftDerives : Derives level own left)
    (ends : EndsAfter level (⟨lexeme, position⟩ :: (rightTokens ++ afterRight)))
    (isJoint : lexeme.joint? = some joint) (rightDerives : Derives rightLevel rightTokens right)
    (strong : joint.rightPower ≤ rightLevel.power) (rightEnds : EndsAt joint.rightPower afterRight)
    (single : joint.chained? afterRight = none) :
    ∃ whole : Level, whole.power = joint.leftPower ∧
      Derives whole (own ++ ⟨lexeme, position⟩ :: rightTokens) (joint.join position left right) ∧
      EndsAfter whole afterRight := by
  have held := endsAt_cons_iff.mp ends joint isJoint
  rcases joint_cases isJoint with ⟨comparison, rfl, rfl⟩ | ⟨operator, rfl, rfl⟩
  · refine ⟨.comparison, rfl, .compare comparison position (leftDerives.weaken ?_)
      (rightDerives.weaken ?_), endsAt_zero_of_single rightEnds single⟩
    · cases level <;> first | decide | simp [Joint.leftPower] at held
    · cases rightLevel <;> first | decide | simp [Joint.rightPower, Level.power] at strong
  · refine ⟨operator.level, operator.power_level, .operate operator position
      (leftDerives.weaken ?_) (rightDerives.weaken (Operator.power_rightLevel_le strong)), ?_⟩
    · cases operator <;> cases level <;> first | decide | exact absurd held (by decide)
    · refine rightEnds.mono ?_
      cases operator <;> decide

end Readings

mutual
theorem readsDerived_of_expressionFrom {stop power : Nat} {tokens rest : List Token}
    {expression : Expression} (small : power ≤ negativePower)
    (read : Gives (expressionFrom stop power tokens) expression rest) :
    ReadsDerived power tokens expression rest := by
  obtain ⟨first, afterFirst, firstRead, joined⟩ := gives_expressionFrom_iff.mp read
  obtain ⟨own, rfl, derives⟩ := derives_of_operandFrom firstRead
  have shorter : afterFirst.length < (own ++ afterFirst).length := firstRead.choose
  exact readsDerived_of_joinedFrom joined derives small endsAfter_unary
termination_by (tokens.length, 1)

theorem readsDerived_of_joinedFrom {stop power : Nat} {level : Level} {own tokens rest : List Token}
    {left expression : Expression}
    (read : Gives (joinedFrom stop power left tokens) expression rest)
    (leftDerives : Derives level own left) (strong : power ≤ level.power)
    (ends : EndsAfter level tokens) : ReadsDerived power (own ++ tokens) expression rest := by
  rcases joinedFrom_cases read with ⟨rfl, rfl, ended⟩ |
    ⟨lexeme, position, operand, joint, right, afterRight, rfl, isJoint, joins, rightRead, single, later⟩
  · exact ⟨level, own, rfl, strong, leftDerives, ended⟩
  · obtain ⟨rightLevel, rightTokens, rfl, rightStrong, rightDerives, rightEnds⟩ :=
      readsDerived_of_expressionFrom joint.rightPower_le rightRead
    obtain ⟨whole, power_whole, wholeDerives, wholeEnds⟩ :=
      leftDerives.join ends isJoint rightDerives rightStrong rightEnds single
    have reads := readsDerived_of_joinedFrom later wholeDerives (power_whole ▸ joins) wholeEnds
    simpa using reads
termination_by (tokens.length, 0)

theorem derives_of_operandFrom {stop : Nat} {tokens rest : List Token} {expression : Expression}
    (read : Gives (operandFrom stop tokens) expression rest) :
    ∃ own, tokens = own ++ rest ∧ Derives .unary own expression := by
  cases gives_operandFrom_iff.mp read with
  | number => exact ⟨_, rfl, .number _ _⟩
  | name => exact ⟨_, rfl, .name _ _⟩
  | @call position opening function _ _ _ arguments =>
      obtain ⟨own, closing, rfl, pieces, each, separated, rfl⟩ := derivesEach_of_enclosed arguments
      have derives := Derives.call function position opening closing each separated
      exact ⟨_, by simp [Bracket.closing], derives⟩
  | @parenthesized opening closing _ _ _ inner =>
      obtain ⟨level, own, rfl, -, derives, -⟩ :=
        readsDerived_of_expressionFrom (Nat.zero_le _) inner
      have derives := Derives.parenthesized opening closing derives.ofAny
      exact ⟨_, by simp, derives⟩
  | @list position _ _ _ items =>
      obtain ⟨own, closing, rfl, pieces, each, separated, rfl⟩ := derivesEach_of_enclosed items
      have derives := Derives.list position closing each separated
      exact ⟨_, by simp [Bracket.closing], derives⟩
  | negative inner =>
      obtain ⟨level, own, rfl, strong, derives, -⟩ :=
        readsDerived_of_expressionFrom (Nat.le_refl _) inner
      exact ⟨_, rfl, .negate _ (derives.weaken strong)⟩
termination_by (tokens.length, 0)

theorem derivesEach_of_enclosed {stop : Nat} {tokens rest : List Token} {bracket : Bracket}
    {expressions : List Expression}
    (read : Gives (enclosed stop bracket tokens) expressions rest) :
    ∃ own closing, tokens = own ++ ⟨bracket.closing, closing⟩ :: rest ∧
      DerivesEach own expressions := by
  obtain ⟨closing, ⟨rfl, rfl⟩ | ⟨-, itemsRead⟩⟩ := gives_enclosed_iff.mp read
  · exact ⟨[], closing, rfl, [], by simp, .nothing, rfl⟩
  · obtain ⟨own, rfl, -, each⟩ := derivesEach_of_elements itemsRead
    exact ⟨own, closing, rfl, each⟩
termination_by (tokens.length, 3)

theorem derivesEach_of_elements {stop : Nat} {tokens rest : List Token} {expressions : List Expression}
    (read : Gives (elements stop tokens) expressions rest) :
    ∃ own, tokens = own ++ rest ∧ expressions ≠ [] ∧ DerivesEach own expressions := by
  obtain ⟨first, afterFirst, firstRead, later⟩ := gives_elements_iff.mp read
  obtain ⟨level, firstTokens, rfl, -, derives, -⟩ :=
    readsDerived_of_expressionFrom (Nat.zero_le _) firstRead
  rcases later with ⟨position, more, others, rfl, othersRead, rfl⟩ | ⟨-, rfl, rfl⟩
  · obtain ⟨own, rfl, nonempty, each⟩ := derivesEach_of_elements othersRead
    exact ⟨_, by simp, by simp, each.cons position nonempty derives.ofAny⟩
  · exact ⟨firstTokens, rfl, by simp, .single derives.ofAny⟩
termination_by (tokens.length, 2)
end

/-! ## What derives is read -/

section Derivations

variable {level : Level} {stop power : Nat} {tokens rest final : List Token}
  {expression whole : Expression}

/-- The tokens begin with neither a joint nor the arguments of a call. -/
def Closes (tokens : List Token) : Prop :=
  ∀ token ∈ tokens.head?, token.lexeme.joint? = none ∧ token.lexeme ≠ .leftParen

theorem closes_nil : Closes [] := by
  simp [Closes]

theorem closes_comma (position : Nat) : Closes (⟨.comma, position⟩ :: rest) := by
  simp [Closes, Lexeme.joint?]

theorem closes_closing (bracket : Bracket) (position : Nat) :
    Closes (⟨bracket.closing, position⟩ :: rest) := by
  cases bracket <;> simp [Closes, Bracket.closing, Lexeme.joint?]

theorem Closes.endsAt (closes : Closes tokens) : EndsAt power tokens := by
  intro token isFirst joint isJoint
  rw [(closes token isFirst).1] at isJoint
  cases isJoint

theorem Closes.noArguments (closes : Closes tokens) :
    ∀ token ∈ tokens.head?, token.lexeme ≠ .leftParen :=
  fun token isFirst => (closes token isFirst).2

theorem endsAt_negativePower : EndsAt negativePower tokens :=
  fun _ _ joint _ => joint.leftPower_lt

theorem chained?_eq_none {joint : Joint} (ends : EndsAt 0 tokens) : joint.chained? tokens = none := by
  unfold Joint.chained?
  split
  · exact absurd (endsAt_cons_iff.mp ends _ rfl) (Nat.not_lt_zero _)
  · rfl

theorem Operator.joint?_lexeme (operator : Operator) :
    operator.lexeme.joint? = some (.operate operator) := by
  cases operator <;> rfl

/-- An expression is read from its tokens in front of the end of a phrase. -/
def IsRead (stop : Nat) (tokens : List Token) (expression : Expression) : Prop :=
  ∀ rest, Closes rest → Gives (expressionFrom stop 0 (tokens ++ rest)) expression rest

theorem gives_elements_of_each (stop : Nat) {rest : List Token}
    {pieces : List (List Token × Expression)} (nonempty : pieces ≠ [])
    (each : ∀ piece ∈ pieces, IsRead stop piece.1 piece.2)
    (separated : CommaSeparated (pieces.map Prod.fst) tokens) (closes : Closes rest)
    (noComma : ∀ token ∈ rest.head?, token.lexeme ≠ .comma) :
    Gives (elements stop (tokens ++ rest)) (pieces.map Prod.snd) rest := by
  induction pieces generalizing tokens with
  | nil => exact absurd rfl nonempty
  | cons piece pieces induction =>
      obtain ⟨pieceRead, laterRead⟩ := List.forall_mem_cons.mp each
      rw [gives_elements_iff]
      cases pieces with
      | nil =>
          cases separated
          exact ⟨_, rest, pieceRead rest closes, .inr ⟨noComma, rfl, rfl⟩⟩
      | cons next pieces =>
          obtain _ | _ | @⟨_, _, _, later, position, laterSeparated⟩ := separated
          refine ⟨piece.2, _, ?_, .inl ⟨position, later ++ rest, _, rfl,
            induction (by simp) laterRead laterSeparated, rfl⟩⟩
          rw [List.append_assoc]
          exact pieceRead _ (closes_comma position)

/-- What begins with a closing sign is not read as expressions. -/
theorem head_ne_closing_of_gives_elements {bracket : Bracket} {expressions : List Expression}
    (read : Gives (elements stop tokens) expressions rest) :
    ∀ token ∈ tokens.head?, token.lexeme ≠ bracket.closing := by
  obtain ⟨first, afterFirst, firstRead, -⟩ := gives_elements_iff.mp read
  obtain ⟨operand, afterOperand, operandRead, -⟩ := gives_expressionFrom_iff.mp firstRead
  cases gives_operandFrom_iff.mp operandRead <;> cases bracket <;> simp [Bracket.closing]

theorem gives_enclosed_of_each {pieces : List (List Token × Expression)} (bracket : Bracket)
    (closing : Nat) (rest : List Token) (each : ∀ piece ∈ pieces, IsRead stop piece.1 piece.2)
    (separated : CommaSeparated (pieces.map Prod.fst) tokens) :
    Gives (enclosed stop bracket (tokens ++ ⟨bracket.closing, closing⟩ :: rest))
      (pieces.map Prod.snd) rest := by
  rw [gives_enclosed_iff]
  by_cases empty : pieces = []
  · subst empty
    cases separated
    exact ⟨closing, .inl ⟨rfl, rfl⟩⟩
  · have noComma : ∀ token ∈ (⟨bracket.closing, closing⟩ :: rest : List Token).head?,
        token.lexeme ≠ .comma := by
      cases bracket <;> simp [Bracket.closing]
    have read := gives_elements_of_each stop empty each separated (closes_closing bracket closing) noComma
    exact ⟨closing, .inr ⟨head_ne_closing_of_gives_elements read, read⟩⟩

theorem Operator.endsAfter_lexeme (operator : Operator) (position : Nat) :
    EndsAfter operator.level (⟨operator.lexeme, position⟩ :: rest) := by
  cases operator <;>
    simp [EndsAfter, endsAt_cons_iff, Operator.lexeme, Operator.level, Lexeme.joint?,
      Joint.leftPower, Level.power]

theorem Operator.lexeme_ne_leftParen (operator : Operator) : operator.lexeme ≠ .leftParen := by
  cases operator <;> decide

/-- What may follow the whole that an operator makes may follow its right operand, which ends there. -/
theorem EndsAfter.rightOperand {operator : Operator} (ends : EndsAfter operator.level rest) :
    EndsAfter operator.rightLevel rest ∧ EndsAt (Joint.operate operator).rightPower rest := by
  cases operator <;> exact ⟨ends.mono (by decide), ends.mono (by decide)⟩

/-- What derives at a level is read at every power up to that of the level, and what follows it is
then joined to it. -/
theorem Derives.gives (derives : Derives level tokens expression) (power_le : power ≤ level.power)
    (ends : EndsAfter level rest) (noArguments : ∀ token ∈ rest.head?, token.lexeme ≠ .leftParen)
    (joined : Gives (joinedFrom stop power expression rest) whole final) :
    Gives (expressionFrom stop power (tokens ++ rest)) whole final := by
  induction derives generalizing power rest whole final with
  | @compare left right _ rightTokens comparison position _ _ leftInduction rightInduction =>
      have rightRead : Gives (expressionFrom stop 2 (rightTokens ++ rest)) right rest :=
        rightInduction (by decide) (ends.mono (by decide)) noArguments
          (gives_joinedFrom_of_endsAt (ends.mono (by decide)))
      rw [List.append_assoc, List.cons_append]
      refine leftInduction (Nat.le_trans power_le (by decide)) ?_ (by simp)
        (gives_joinedFrom_of_joint rfl power_le rightRead (chained?_eq_none ends) joined)
      simp [EndsAfter, endsAt_cons_iff, Lexeme.joint?, Joint.leftPower, Level.power]
  | operate operator position _ _ leftInduction rightInduction =>
      obtain ⟨rightEnds, rightStops⟩ := ends.rightOperand
      have rightRead := rightInduction (operator.rightPower_le_rightLevel) rightEnds noArguments
        (gives_joinedFrom_of_endsAt rightStops)
      rw [List.append_assoc, List.cons_append]
      exact leftInduction power_le (operator.endsAfter_lexeme position)
        (by simpa using operator.lexeme_ne_leftParen)
        (gives_joinedFrom_of_joint operator.joint?_lexeme (operator.power_level ▸ power_le) rightRead
          rfl joined)
  | ofSum _ induction =>
      exact induction (Nat.le_trans power_le (by decide)) (ends.mono (by decide)) noArguments joined
  | ofProduct _ induction =>
      exact induction (Nat.le_trans power_le (by decide)) (ends.mono (by decide)) noArguments joined
  | ofUnary _ induction =>
      exact induction (Nat.le_trans power_le (by decide)) endsAfter_unary noArguments joined
  | negate position _ induction =>
      have inner := induction (Nat.le_refl negativePower) endsAfter_unary noArguments
        (gives_joinedFrom_of_endsAt endsAt_negativePower)
      exact gives_expressionFrom_iff.mpr ⟨_, rest, (OperandRead.negative inner).gives, joined⟩
  | number position value =>
      exact gives_expressionFrom_iff.mpr ⟨_, rest, OperandRead.number.gives, joined⟩
  | name position text =>
      exact gives_expressionFrom_iff.mpr ⟨_, rest, (OperandRead.name noArguments).gives, joined⟩
  | call function position opening closing _ separated induction =>
      have arguments := gives_enclosed_of_each .round closing rest (fun piece member rest closes =>
        induction piece member (Nat.zero_le _) closes.endsAt closes.noArguments
          (gives_joinedFrom_of_endsAt closes.endsAt)) separated
      refine gives_expressionFrom_iff.mpr ⟨_, rest, OperandRead.gives ?_, joined⟩
      simpa [Bracket.closing] using OperandRead.call arguments
  | @parenthesized tokens expression opening closing _ induction =>
      have closes : Closes (⟨.rightParen, closing⟩ :: rest) := closes_closing .round closing
      have inner := induction (Nat.zero_le _) closes.endsAt closes.noArguments
        (gives_joinedFrom_of_endsAt closes.endsAt)
      refine gives_expressionFrom_iff.mpr ⟨_, rest, OperandRead.gives ?_, joined⟩
      simpa using OperandRead.parenthesized inner
  | list position closing _ separated induction =>
      have items := gives_enclosed_of_each .square closing rest (fun piece member rest closes =>
        induction piece member (Nat.zero_le _) closes.endsAt closes.noArguments
          (gives_joinedFrom_of_endsAt closes.endsAt)) separated
      refine gives_expressionFrom_iff.mpr ⟨_, rest, OperandRead.gives ?_, joined⟩
      simpa [Bracket.closing] using OperandRead.list items

theorem Derives.isRead (derives : Derives .comparison tokens expression) (stop : Nat) :
    IsRead stop tokens expression :=
  fun _ closes => derives.gives (Nat.zero_le _) closes.endsAt closes.noArguments
    (gives_joinedFrom_of_endsAt closes.endsAt)

end Derivations

/-! ## Whole texts -/

section Texts

variable {stop : Nat} {tokens : List Token} {expression : Expression} {expressions : List Expression}

theorem finish_eq_ok_iff {value : Type} {read final : value} :
    finish read tokens = .ok final ↔ read = final ∧ tokens = [] := by
  cases tokens <;> simp [finish]

theorem readExpression_eq_ok_iff :
    readExpression stop tokens = .ok expression ↔ Derives .comparison tokens expression := by
  rw [readExpression, bind_eq_ok_iff]
  constructor
  · rintro ⟨⟨read, rest, _⟩, found, finished⟩
    obtain ⟨rfl, rfl⟩ := finish_eq_ok_iff.mp finished
    obtain ⟨level, own, rfl, -, derives, -⟩ :=
      readsDerived_of_expressionFrom (Nat.zero_le _) ⟨_, found⟩
    simpa using derives.ofAny
  · intro derives
    have read := derives.isRead stop [] closes_nil
    rw [List.append_nil] at read
    obtain ⟨shorter, read⟩ := read
    exact ⟨_, read, finish_eq_ok_iff.mpr ⟨rfl, rfl⟩⟩

theorem readExpressions_eq_ok_iff :
    readExpressions stop tokens = .ok expressions ↔
      expressions ≠ [] ∧ DerivesEach tokens expressions := by
  rw [readExpressions]
  constructor
  · intro read
    split at read
    · cases read
    · obtain ⟨⟨items, rest, _⟩, found, finished⟩ := bind_eq_ok_iff.mp read
      obtain ⟨rfl, rfl⟩ := finish_eq_ok_iff.mp finished
      obtain ⟨own, rfl, nonempty, each⟩ := derivesEach_of_elements ⟨_, found⟩
      exact ⟨nonempty, by simpa using each⟩
  · rintro ⟨nonempty, pieces, each, separated, rfl⟩
    have read := gives_elements_of_each stop (by simpa using nonempty)
      (fun piece member => (each piece member).isRead stop) separated closes_nil (by simp)
    rw [List.append_nil] at read
    obtain ⟨shorter, read⟩ := read
    have someToken : ¬tokens.isEmpty := by
      rintro empty
      simp [List.isEmpty_iff.mp empty] at shorter
    rw [if_neg someToken]
    exact bind_eq_ok_iff.mpr ⟨_, read, finish_eq_ok_iff.mpr ⟨rfl, rfl⟩⟩

theorem parseExpression_eq_ok_iff {text : String} : parseExpression text = .ok expression ↔
    ∃ tokens, scan text = .ok tokens ∧ Derives .comparison tokens expression := by
  simp only [parseExpression, bind_eq_ok_iff, readExpression_eq_ok_iff]

theorem parseExpressions_eq_ok_iff {text : String} : parseExpressions text = .ok expressions ↔
    ∃ tokens, scan text = .ok tokens ∧ expressions ≠ [] ∧ DerivesEach tokens expressions := by
  simp only [parseExpressions, bind_eq_ok_iff, readExpressions_eq_ok_iff]

/-- Tokens are read as one expression just if they derive from the grammar, and as expressions just if
they are a list of such tokens between commas; else they are refused. -/
theorem readers_accept_exactly_grammar (stop : Nat) (tokens : List Token) :
    (∀ expression, readExpression stop tokens = .ok expression ↔
        Derives .comparison tokens expression) ∧
      (∀ expressions, readExpressions stop tokens = .ok expressions ↔
        expressions ≠ [] ∧ DerivesEach tokens expressions) ∧
      ((∃ error, readExpression stop tokens = .error error) ↔
        ¬ ∃ expression, Derives .comparison tokens expression) ∧
      ((∃ error, readExpressions stop tokens = .error error) ↔
        ¬ ∃ expressions, expressions ≠ [] ∧ DerivesEach tokens expressions) := by
  simp only [exists_error_iff, readExpression_eq_ok_iff, readExpressions_eq_ok_iff, implies_true,
    and_self]

end Texts

end Ergo.Language
