import Ergo.Language.Grammar
import Ergo.Proofs.Results

/-!
What each reader of tokens gives, in terms of what the readers that it calls give.
-/

namespace Ergo.Language

variable {stop power : Nat} {tokens rest : List Token}

/-- A value was read, and these are the tokens that were left. -/
def Gives {value : Type} {Left : List Token → Prop}
    (result : Except ParseError (value × { rest : List Token // Left rest })) (read : value)
    (rest : List Token) : Prop :=
  ∃ left, result = .ok (read, ⟨rest, left⟩)

/-! ## Joints -/

theorem gives_expressionFrom_iff {whole : Expression} :
    Gives (expressionFrom stop power tokens) whole rest ↔
      ∃ first afterFirst, Gives (operandFrom stop tokens) first afterFirst ∧
        Gives (joinedFrom stop power first afterFirst) whole rest := by
  rw [expressionFrom]
  constructor
  · rintro ⟨_, read⟩
    obtain ⟨⟨first, afterFirst, _⟩, firstRead, joined⟩ := bind_eq_ok_iff.mp read
    obtain ⟨⟨whole, rest, _⟩, joinedRead, same⟩ := bind_eq_ok_iff.mp joined
    cases same
    exact ⟨first, afterFirst, ⟨_, firstRead⟩, _, joinedRead⟩
  · rintro ⟨first, afterFirst, ⟨shorter, firstRead⟩, notLonger, joinedRead⟩
    refine ⟨by omega, ?_⟩
    simp only [firstRead, bind, Except.bind, joinedRead]
    rfl

/-- The tokens do not begin with a joint of at least this power. -/
def EndsAt (power : Nat) (tokens : List Token) : Prop :=
  ∀ token ∈ tokens.head?, ∀ joint, token.lexeme.joint? = some joint → joint.leftPower < power

theorem endsAt_cons_iff {token : Token} : EndsAt power (token :: rest) ↔
    ∀ joint, token.lexeme.joint? = some joint → joint.leftPower < power := by
  simp [EndsAt]

theorem gives_joinedFrom_of_endsAt {left : Expression} (ends : EndsAt power tokens) :
    Gives (joinedFrom stop power left tokens) left tokens := by
  cases tokens with
  | nil => exact ⟨by simp, by rw [joinedFrom]⟩
  | cons token operand =>
      rw [endsAt_cons_iff] at ends
      refine ⟨by simp, ?_⟩
      rw [joinedFrom]
      split
      · rfl
      · next joint isJoint => rw [if_pos (ends joint isJoint)]

theorem gives_joinedFrom_of_joint {left right whole : Expression} {lexeme : Lexeme} {position : Nat}
    {operand afterRight : List Token} {joint : Joint} (isJoint : lexeme.joint? = some joint)
    (strong : power ≤ joint.leftPower)
    (rightRead : Gives (expressionFrom stop joint.rightPower operand) right afterRight)
    (single : joint.chained? afterRight = none)
    (joined : Gives (joinedFrom stop power (joint.join position left right) afterRight) whole rest) :
    Gives (joinedFrom stop power left (⟨lexeme, position⟩ :: operand)) whole rest := by
  obtain ⟨shorter, rightRead⟩ := rightRead
  obtain ⟨notLonger, joined⟩ := joined
  refine ⟨by simp only [List.length_cons]; omega, ?_⟩
  rw [joinedFrom]
  split
  · next noJoint => rw [isJoint] at noJoint; cases noJoint
  · next other isOther =>
      obtain rfl : joint = other := Option.some.inj (isJoint.symm.trans isOther)
      rw [if_neg (by omega), rightRead]
      simp only [bind, Except.bind]
      split
      · next chained isChained => rw [single] at isChained; cases isChained
      · rw [joined]
        rfl

/-- What is joined to an expression: nothing, or an operand and what is then joined to the two. -/
theorem joinedFrom_cases {left whole : Expression}
    (read : Gives (joinedFrom stop power left tokens) whole rest) :
    (whole = left ∧ rest = tokens ∧ EndsAt power tokens) ∨
      ∃ lexeme position operand joint right afterRight,
        tokens = ⟨lexeme, position⟩ :: operand ∧ lexeme.joint? = some joint ∧
        power ≤ joint.leftPower ∧
        Gives (expressionFrom stop joint.rightPower operand) right afterRight ∧
        joint.chained? afterRight = none ∧
        Gives (joinedFrom stop power (joint.join position left right) afterRight) whole rest := by
  obtain ⟨_, read⟩ := read
  cases tokens with
  | nil =>
      rw [joinedFrom] at read
      cases read
      exact .inl ⟨rfl, rfl, by simp [EndsAt]⟩
  | cons token operand =>
      obtain ⟨lexeme, position⟩ := token
      rw [joinedFrom] at read
      split at read
      · next noJoint =>
          cases read
          exact .inl ⟨rfl, rfl, endsAt_cons_iff.mpr fun joint isJoint => by simp [noJoint] at isJoint⟩
      · next joint isJoint =>
          split at read
          · next weak =>
              cases read
              refine .inl ⟨rfl, rfl, endsAt_cons_iff.mpr fun other isOther => ?_⟩
              rwa [← Option.some.inj (isJoint.symm.trans isOther)]
          · next strong =>
              obtain ⟨⟨right, afterRight, _⟩, rightRead, joined⟩ := bind_eq_ok_iff.mp read
              dsimp only at joined
              split at joined
              · cases joined
              · next single =>
                  obtain ⟨⟨whole, rest, _⟩, joinedRead, same⟩ := bind_eq_ok_iff.mp joined
                  cases same
                  exact .inr ⟨lexeme, position, operand, joint, right, afterRight, rfl, isJoint,
                    by omega, ⟨_, rightRead⟩, single, _, joinedRead⟩

/-! ## Brackets -/

theorem close_eq_ok_iff {bracket : Bracket} {left : Rest tokens} :
    close stop bracket tokens = .ok left ↔
      ∃ position, tokens = ⟨bracket.closing, position⟩ :: left.val := by
  obtain ⟨left, shorter⟩ := left
  cases tokens with
  | nil => simp [close]
  | cons token tokens =>
      obtain ⟨lexeme, position⟩ := token
      by_cases closing : lexeme = bracket.closing <;> simp [close, closing]

theorem gives_elements_iff {expressions : List Expression} :
    Gives (elements stop tokens) expressions rest ↔
      ∃ first afterFirst, Gives (expressionFrom stop 0 tokens) first afterFirst ∧
        ((∃ position more others, afterFirst = ⟨.comma, position⟩ :: more ∧
            Gives (elements stop more) others rest ∧ expressions = first :: others) ∨
          (∀ token ∈ afterFirst.head?, token.lexeme ≠ .comma) ∧ rest = afterFirst ∧
            expressions = [first]) := by
  rw [elements]
  constructor
  · rintro ⟨_, read⟩
    obtain ⟨⟨first, afterFirst, shorter⟩, firstRead, later⟩ := bind_eq_ok_iff.mp read
    refine ⟨first, afterFirst, ⟨shorter, firstRead⟩, ?_⟩
    dsimp only at later
    split at later
    · next position more shorter =>
        obtain ⟨⟨others, rest, _⟩, othersRead, same⟩ := bind_eq_ok_iff.mp later
        cases same
        exact .inl ⟨position, more, others, rfl, ⟨_, othersRead⟩, rfl⟩
    · next noComma =>
        cases later
        refine .inr ⟨?_, rfl, rfl⟩
        rintro ⟨lexeme, position⟩ isFirst rfl
        obtain ⟨later, rfl⟩ := List.head?_eq_some_iff.mp isFirst
        exact noComma position later shorter rfl HEq.rfl
  · rintro ⟨first, afterFirst, ⟨shorter, firstRead⟩, more⟩
    rcases more with ⟨position, more, others, rfl, ⟨moreShorter, othersRead⟩, rfl⟩ | ⟨noComma, rfl, rfl⟩
    · simp only [List.length_cons] at shorter
      refine ⟨by omega, ?_⟩
      rw [firstRead]
      simp only [bind, Except.bind, othersRead]
      rfl
    · refine ⟨shorter, ?_⟩
      rw [firstRead]
      simp only [bind, Except.bind]
      split
      · exact absurd rfl (noComma _ rfl)
      · rfl

theorem gives_enclosed_iff {bracket : Bracket} {expressions : List Expression} :
    Gives (enclosed stop bracket tokens) expressions rest ↔
      ∃ position, (expressions = [] ∧ tokens = ⟨bracket.closing, position⟩ :: rest) ∨
        (∀ token ∈ tokens.head?, token.lexeme ≠ bracket.closing) ∧
          Gives (elements stop tokens) expressions (⟨bracket.closing, position⟩ :: rest) := by
  rw [enclosed]
  constructor
  · rintro ⟨_, read⟩
    split at read
    · next left closed =>
        cases read
        obtain ⟨position, same⟩ := close_eq_ok_iff.mp closed
        exact ⟨position, .inl ⟨rfl, same⟩⟩
    · next error notClosed =>
        obtain ⟨⟨items, afterItems, _⟩, itemsRead, closing⟩ := bind_eq_ok_iff.mp read
        obtain ⟨⟨rest, _⟩, closed, same⟩ := bind_eq_ok_iff.mp closing
        cases same
        obtain ⟨position, same⟩ := close_eq_ok_iff.mp closed
        dsimp only at same
        subst same
        refine ⟨position, .inr ⟨?_, _, itemsRead⟩⟩
        rintro ⟨lexeme, position⟩ isFirst rfl
        obtain ⟨later, rfl⟩ := List.head?_eq_some_iff.mp isFirst
        simp [close] at notClosed
  · rintro ⟨position, ⟨rfl, rfl⟩ | ⟨notClosing, shorter, itemsRead⟩⟩
    · exact ⟨by simp, by simp [close]⟩
    · simp only [List.length_cons] at shorter
      refine ⟨by omega, ?_⟩
      split
      · next left closed =>
          obtain ⟨position, same⟩ := close_eq_ok_iff.mp closed
          exact absurd rfl (notClosing ⟨bracket.closing, position⟩ (by rw [same]; rfl))
      · rw [itemsRead]
        simp [bind, Except.bind, close, pure, Except.pure]

/-! ## Operands -/

/-- What an operand is read from. -/
inductive OperandRead (stop : Nat) : List Token → Expression → List Token → Prop
  | number {position : Nat} {value : Rat} {rest : List Token} :
      OperandRead stop (⟨.number value, position⟩ :: rest) (.number position value) rest
  | name {position : Nat} {text : String} {rest : List Token} :
      (∀ token ∈ rest.head?, token.lexeme ≠ .leftParen) →
      OperandRead stop (⟨.name text, position⟩ :: rest) (.name position text) rest
  | call {position opening : Nat} {function : String} {operands rest : List Token}
      {expressions : List Expression} :
      Gives (enclosed stop .round operands) expressions rest →
      OperandRead stop (⟨.name function, position⟩ :: ⟨.leftParen, opening⟩ :: operands)
        (.call position function expressions) rest
  | parenthesized {opening closing : Nat} {operand rest : List Token} {inner : Expression} :
      Gives (expressionFrom stop 0 operand) inner (⟨.rightParen, closing⟩ :: rest) →
      OperandRead stop (⟨.leftParen, opening⟩ :: operand) inner rest
  | list {position : Nat} {operands rest : List Token} {expressions : List Expression} :
      Gives (enclosed stop .square operands) expressions rest →
      OperandRead stop (⟨.leftBracket, position⟩ :: operands) (.list position expressions) rest
  | negative {position : Nat} {operand rest : List Token} {inner : Expression} :
      Gives (expressionFrom stop negativePower operand) inner rest →
      OperandRead stop (⟨.minus, position⟩ :: operand) (.negate position inner) rest

theorem operandRead_of_gives {read : Expression}
    (gives : Gives (operandFrom stop tokens) read rest) : OperandRead stop tokens read rest := by
  obtain ⟨_, found⟩ := gives
  rw [operandFrom.eq_def] at found
  split at found
  · cases found
  · cases found
    exact .number
  · obtain ⟨⟨arguments, rest, _⟩, argumentsRead, same⟩ := bind_eq_ok_iff.mp found
    cases same
    exact .call ⟨_, argumentsRead⟩
  · next noArguments _ =>
      cases found
      refine .name ?_
      rintro ⟨lexeme, position⟩ isFirst rfl
      obtain ⟨later, rfl⟩ := List.head?_eq_some_iff.mp isFirst
      exact noArguments position later rfl
  · obtain ⟨⟨inner, afterInner, _⟩, innerRead, closing⟩ := bind_eq_ok_iff.mp found
    obtain ⟨⟨rest, _⟩, closed, same⟩ := bind_eq_ok_iff.mp closing
    cases same
    obtain ⟨position, same⟩ := close_eq_ok_iff.mp closed
    dsimp only at same
    subst same
    exact .parenthesized ⟨_, innerRead⟩
  · obtain ⟨⟨items, rest, _⟩, itemsRead, same⟩ := bind_eq_ok_iff.mp found
    cases same
    exact .list ⟨_, itemsRead⟩
  · obtain ⟨⟨inner, rest, _⟩, innerRead, same⟩ := bind_eq_ok_iff.mp found
    cases same
    exact .negative ⟨_, innerRead⟩
  · cases found

theorem OperandRead.gives {read : Expression} (operandRead : OperandRead stop tokens read rest) :
    Gives (operandFrom stop tokens) read rest := by
  cases operandRead with
  | number => exact ⟨by simp, by rw [operandFrom]⟩
  | name noArguments =>
      refine ⟨by simp, ?_⟩
      rw [operandFrom]
      rintro place operands rfl
      exact noArguments _ rfl rfl
  | call arguments =>
      obtain ⟨shorter, argumentsRead⟩ := arguments
      refine ⟨by simp only [List.length_cons]; omega, ?_⟩
      rw [operandFrom, argumentsRead]
      rfl
  | parenthesized inner =>
      obtain ⟨shorter, innerRead⟩ := inner
      simp only [List.length_cons] at shorter
      refine ⟨by simp only [List.length_cons]; omega, ?_⟩
      rw [operandFrom, innerRead]
      simp [bind, Except.bind, close, Bracket.closing, pure, Except.pure]
  | list items =>
      obtain ⟨shorter, itemsRead⟩ := items
      refine ⟨by simp only [List.length_cons]; omega, ?_⟩
      rw [operandFrom, itemsRead]
      rfl
  | negative inner =>
      obtain ⟨shorter, innerRead⟩ := inner
      refine ⟨by simp only [List.length_cons]; omega, ?_⟩
      rw [operandFrom, innerRead]
      rfl

theorem gives_operandFrom_iff {read : Expression} :
    Gives (operandFrom stop tokens) read rest ↔ OperandRead stop tokens read rest :=
  ⟨operandRead_of_gives, OperandRead.gives⟩

end Ergo.Language
