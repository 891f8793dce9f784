import Ergo.Proofs.Language.Displacement
import Ergo.Proofs.Session.DeclaredNames
import Ergo.Proofs.Session.Restoration

/-!
Texts that are added one by one or as one text with a comma between them. A session holds the same
constraints and variables in both cases, in the same order, and goes on to give the same verdicts and
values; only its log tells the two apart (`batched_of_read`).
-/

namespace Ergo

open Ergo.Language

/-! ## What is read from repositioned expressions -/

variable {change : Nat → Nat} {expression : Expression}

theorem Quantity.ofExpression_reposition {quantity : Quantity}
    (read : ofExpression expression = .ok quantity) :
    ofExpression (expression.reposition change) = .ok quantity := by
  induction expression using Expression.inductionOn generalizing quantity with
  | name position text =>
      rw [ofExpression] at read
      split at read
      · cases read
      · next unreserved =>
        rw [Expression.reposition, ofExpression, if_neg unreserved, read]
  | number position value =>
      obtain ⟨rfl, hasValue⟩ := of_checked read
      exact checked_of_hasValue hasValue
  | negate position operand induction =>
      rw [ofExpression, bind_eq_ok_iff] at read
      obtain ⟨inner, innerRead, read⟩ := read
      obtain ⟨rfl, hasValue⟩ := of_checked read
      rw [Expression.reposition, ofExpression, bind_eq_ok_iff]
      exact ⟨inner, induction innerRead, checked_of_hasValue hasValue⟩
  | operate position operator left right leftInduction rightInduction =>
      simp only [ofExpression, bind_eq_ok_iff] at read
      obtain ⟨leftQuantity, leftRead, rightQuantity, rightRead, read⟩ := read
      simp only [Expression.reposition, ofExpression, bind_eq_ok_iff]
      refine ⟨leftQuantity, leftInduction leftRead, rightQuantity, rightInduction rightRead, ?_⟩
      cases operator with
      | add | subtract =>
          obtain ⟨rfl, hasValue⟩ := of_checked read
          exact checked_of_hasValue hasValue
      | multiply =>
          dsimp only at read ⊢
          split at read
          · next oneGround =>
              obtain ⟨rfl, hasValue⟩ := of_checked read
              rw [if_pos oneGround]
              exact checked_of_hasValue hasValue
          · cases read
      | divide =>
          obtain ⟨divisor, divisorRead, read⟩ := bind_eq_ok_iff.mp read
          obtain ⟨nonzero, found⟩ := of_divisorValue divisorRead
          obtain ⟨rfl, hasValue⟩ := of_checked read
          refine bind_eq_ok_iff.mpr ⟨divisor, ?_, checked_of_hasValue hasValue⟩
          simp only [divisorValue, found, if_neg nonzero]
  | call | list | compare => cases read

namespace Constraint

theorem ofExpressions_reposition {expressions : List Expression} {parts : List Constraint}
    (read : ofExpressions expressions = .ok parts)
    (each : ∀ expression ∈ expressions, ∀ part, ofExpression expression = .ok part →
      ofExpression (expression.reposition change) = .ok part) :
    ofExpressions (expressions.map (Expression.reposition change)) = .ok parts := by
  rw [ofExpressions_eq_ok_iff, List.forall₂_map_left_iff]
  exact forall₂_imp_of_mem (ofExpressions_eq_ok_iff.mp read) each

theorem ofConnective_of_ok {function : String} {keyword : Option Keyword} {position : Nat}
    {parts : List Constraint} {constraint : Constraint}
    (read : ofConnective position function keyword parts = .ok constraint) (place : Nat) :
    ofConnective place function keyword parts = .ok constraint := by
  unfold ofConnective at read ⊢
  split at read <;> first | exact read | cases read

theorem ofExpression_reposition {constraint : Constraint}
    (read : ofExpression expression = .ok constraint) :
    ofExpression (expression.reposition change) = .ok constraint := by
  induction expression using Expression.inductionOn generalizing constraint with
  | name position text =>
      rw [ofExpression] at read
      rw [Expression.reposition, ofExpression]
      split at read <;> first | exact read | cases read
  | call position function arguments induction =>
      simp only [ofExpression] at read
      simp only [Expression.reposition, repositionEach_eq_map, ofExpression]
      split at read
      · next connects =>
          obtain ⟨parts, partsRead, read⟩ := bind_eq_ok_iff.mp read
          rw [if_pos connects, bind_eq_ok_iff]
          exact ⟨parts, ofExpressions_reposition partsRead fun argument member part =>
            induction argument member, ofConnective_of_ok read _⟩
      · cases read
  | compare position comparison left right =>
      simp only [ofExpression, bind_eq_ok_iff] at read
      obtain ⟨leftQuantity, leftRead, rightQuantity, rightRead, read⟩ := read
      simp only [Expression.reposition, ofExpression, bind_eq_ok_iff]
      exact ⟨leftQuantity, Quantity.ofExpression_reposition leftRead, rightQuantity,
        Quantity.ofExpression_reposition rightRead, read⟩
  | number | list | negate | operate => cases read

/-- The constraints of two texts with a comma between them are those of the first and then those of
the second. -/
theorem parseList_append {first second : String} {constraints others : List Constraint}
    (firstRead : parseList first = .ok constraints) (secondRead : parseList second = .ok others) :
    parseList (first ++ "," ++ second) = .ok (constraints ++ others) := by
  obtain ⟨expressions, parsed, read⟩ := bind_eq_ok_iff.mp firstRead
  obtain ⟨otherExpressions, otherParsed, otherRead⟩ := bind_eq_ok_iff.mp secondRead
  refine bind_eq_ok_iff.mpr ⟨_, parseExpressions_append parsed otherParsed, ?_⟩
  rw [ofExpressions_eq_ok_iff]
  refine List.rel_append (ofExpressions_eq_ok_iff.mp read) (ofExpressions_eq_ok_iff.mp ?_)
  exact ofExpressions_reposition otherRead fun _ _ _ => ofExpression_reposition

end Constraint

namespace Session

variable {first second : String} {front : List String} {wasReset : Bool} {apart batched : Session}

/-! ## Sessions that differ in their logs -/

/-- Until they are reset, the logs go on in the same way after the two texts, which one of them holds as
one; then they are the same. -/
def SameBut (front : List String) (first second : String) :
    (wasReset : Bool) → (log other : List String) → Prop
  | true, log, other => log = other
  | false, log, other => ∃ later, log = front ++ first :: second :: later ∧
      other = front ++ (first ++ "," ++ second) :: later

theorem SameBut.concat {log other : List String}
    (same : SameBut front first second wasReset log other) (text : String) :
    SameBut front first second wasReset (log ++ [text]) (other ++ [text]) := by
  cases wasReset with
  | true => exact congrArg (· ++ [text]) same
  | false =>
      obtain ⟨later, rfl, rfl⟩ := same
      exact ⟨later ++ [text], by simp, by simp⟩

/-- The two sessions hold the same, but for the logs. -/
structure Alike (front : List String) (first second : String) (wasReset : Bool)
    (apart batched : Session) : Prop where
  solver_eq : apart.solver = batched.solver
  isActive_eq : apart.isActive = batched.isActive
  constraints_eq : apart.accepted.constraints = batched.accepted.constraints
  unknowns_eq : apart.accepted.unknowns = batched.accepted.unknowns
  sameBut : SameBut front first second wasReset apart.log batched.log

/-- Whether a text is accepted, and what is read from it, does not depend on the session. -/
theorem serve_add_cases (text : String) :
    (∃ constraints, ∀ session : Session, (session.serve (.add text)).1 =
        session.extend text constraints) ∨
      ∀ session : Session, (session.serve (.add text)).1 = session := by
  cases filled : (Text.trimChars text.toList).isEmpty with
  | true => exact .inr fun session => by simp [serve, add, filled]
  | false =>
      cases read : Constraint.parseList text with
      | error error =>
          exact .inr fun session => by rw [serve, add_of_malformed filled read]
      | ok constraints =>
          exact .inl ⟨constraints, fun session => by rw [serve, add_of_read filled read]⟩

theorem Alike.extend (alike : Alike front first second wasReset apart batched) (text : String)
    (constraints : List Constraint) :
    Alike front first second wasReset (apart.extend text constraints)
      (batched.extend text constraints) where
  solver_eq := alike.solver_eq
  isActive_eq := rfl
  constraints_eq := congrArg (· ++ constraints) alike.constraints_eq
  unknowns_eq := congrArg (·.insertAll (constraints.flatMap Constraint.unknowns)) alike.unknowns_eq
  sameBut := alike.sameBut.concat text

/-- Requests that one of the sessions serves are served alike by the other. -/
theorem Alike.serve (alike : Alike front first second wasReset apart batched) (request : Request) :
    Alike front first second (wasReset || request == .reset) (apart.serve request).1
      (batched.serve request).1 := by
  cases request with
  | reset =>
      rw [beq_self_eq_true, Bool.or_true]
      exact ⟨alike.solver_eq, rfl, rfl, rfl, rfl⟩
  | add text =>
      rw [beq_false_of_ne (by simp), Bool.or_false]
      rcases serve_add_cases text with ⟨constraints, accepted⟩ | refused
      · rw [accepted, accepted]
        exact alike.extend text constraints
      · rwa [refused, refused]
  | check =>
      rw [beq_false_of_ne (by simp), Bool.or_false]
      rwa [serve_check_fst, serve_check_fst]
  | status =>
      rw [beq_false_of_ne (by simp), Bool.or_false]
      exact alike

theorem Alike.serveAll (alike : Alike front first second wasReset apart batched)
    (requests : List Request) :
    Alike front first second (wasReset || requests.contains .reset) (apart.serveAll requests).1
      (batched.serveAll requests).1 := by
  induction requests generalizing wasReset apart batched with
  | nil => rwa [List.contains_nil, Bool.or_false]
  | cons request later induction =>
      rw [List.contains_cons, BEq.comm, ← Bool.or_assoc]
      exact induction (alike.serve request)

/-- Checks of the two give the same verdict and values. -/
theorem Alike.check (alike : Alike front first second wasReset apart batched)
    (isActive : apart.isActive = true) :
    ∃ answer other, apart.check = .ok answer ∧ batched.check = .ok other ∧
      answer.message = other.message ∧ answer.solution? = other.solution? ∧
      SameBut front first second wasReset answer.log other.log := by
  have sameVerdict :
      apart.accepted.verdict apart.solver = batched.accepted.verdict batched.solver := by
    rw [Accepted.verdict, Accepted.verdict, alike.solver_eq, alike.constraints_eq, alike.unknowns_eq]
  refine ⟨_, _, check_eq_ok_iff.mpr ⟨isActive, rfl⟩,
    check_eq_ok_iff.mpr ⟨alike.isActive_eq ▸ isActive, rfl⟩, ?_, congrArg Verdict.model? sameVerdict,
    alike.sameBut⟩
  rw [Check.message, Check.message, sameVerdict]

theorem isActive_serve {session : Session} (isActive : session.isActive = true)
    (request : Request) : (session.serve request).1.isActive = true := by
  rcases session.serve_cases request with ⟨-, served⟩ | ⟨_, _, _, _, _, served⟩ | ⟨-, same, -⟩
  · rw [served]
    rfl
  · rw [served]
    rfl
  · rwa [same]

theorem isActive_serveAll {session : Session} (isActive : session.isActive = true)
    (requests : List Request) : (session.serveAll requests).1.isActive = true := by
  induction requests generalizing session with
  | nil => exact isActive
  | cons request later induction => exact induction (isActive_serve isActive request)

/-! ## Texts added apart and at once -/

theorem alike_extend_extend (first second : String) (constraints others : List Constraint)
    (session : Session) :
    Alike session.log first second false ((session.extend first constraints).extend second others)
      (session.extend (first ++ "," ++ second) (constraints ++ others)) where
  solver_eq := rfl
  isActive_eq := rfl
  constraints_eq := List.append_assoc _ _ _
  unknowns_eq := by
    simp only [extend, accepted, Option.getD_some, Accepted.extend, List.flatMap_append,
      NameSet.insertAll_append]
  sameBut := ⟨[], List.append_assoc _ _ _, rfl⟩

/-- Two texts that hold constraints hold all of them when they are put together with a comma. To add
them one after the other or at once gives the same variables in the same order, then and after any later
requests, and every later check comes to the same verdict and values; until the next reset, the lists of
accepted texts that come with it differ in the two. -/
theorem batched_of_read {constraints others : List Constraint}
    (firstRead : Constraint.parseList first = .ok constraints)
    (secondRead : Constraint.parseList second = .ok others) :
    Constraint.parseList (first ++ "," ++ second) = .ok (constraints ++ others) ∧
      ∀ session : Session, ∃ middle apart batched,
        session.add first = .ok middle ∧ middle.add second = .ok apart ∧
        session.add (first ++ "," ++ second) = .ok batched ∧
        ∀ requests,
          (apart.serveAll requests).1.accepted.unknowns =
            (batched.serveAll requests).1.accepted.unknowns ∧
          ∃ answer other, (apart.serveAll requests).1.check = .ok answer ∧
            (batched.serveAll requests).1.check = .ok other ∧
            answer.message = other.message ∧ answer.solution? = other.solution? ∧
            SameBut session.log first second (requests.contains .reset) answer.log other.log := by
  have bothRead := Constraint.parseList_append firstRead secondRead
  have firstFilled := Constraint.filled_of_parseList firstRead
  have secondFilled := Constraint.filled_of_parseList secondRead
  have bothFilled := Constraint.filled_of_parseList bothRead
  refine ⟨bothRead, fun session => ⟨_, _, _, add_of_read firstFilled firstRead session,
    add_of_read secondFilled secondRead _, add_of_read bothFilled bothRead session,
    fun requests => ?_⟩⟩
  have alike := (alike_extend_extend first second constraints others session).serveAll requests
  exact ⟨alike.unknowns_eq, alike.check (isActive_serveAll rfl requests)⟩

theorem parseList_ascending :
    Constraint.parseList "x < y" = .ok [.compare .less (.var "x") (.var "y")] ∧
      Constraint.parseList "y < z" = .ok [.compare .less (.var "y") (.var "z")] :=
  ⟨by decide +kernel, by decide +kernel⟩

theorem ascending_batched :
    Constraint.parseList "x < y" = .ok [.compare .less (.var "x") (.var "y")] ∧
      Constraint.parseList "y < z" = .ok [.compare .less (.var "y") (.var "z")] ∧
      Constraint.parseList "x < y,y < z" =
        .ok [.compare .less (.var "x") (.var "y"), .compare .less (.var "y") (.var "z")] ∧
      ∃ middle apart batched, (new .elimination).add "x < y" = .ok middle ∧
        middle.add "y < z" = .ok apart ∧ (new .elimination).add "x < y,y < z" = .ok batched ∧
        apart.accepted.unknowns.names = batched.accepted.unknowns.names := by
  obtain ⟨firstRead, secondRead⟩ := parseList_ascending
  obtain ⟨bothRead, added⟩ := batched_of_read firstRead secondRead
  obtain ⟨middle, apart, batched, firstAdded, secondAdded, bothAdded, later⟩ :=
    added (new .elimination)
  exact ⟨firstRead, secondRead, bothRead, middle, apart, batched, firstAdded, secondAdded, bothAdded,
    congrArg NameSet.names (later []).1⟩

/-- The list of accepted texts in the answer to a check tells whether two texts were added at once. -/
theorem not_same_answers :
    ¬ ∀ first second constraints others, Constraint.parseList first = .ok constraints →
        Constraint.parseList second = .ok others →
        Constraint.parseList (first ++ "," ++ second) = .ok (constraints ++ others) ∧
          ∀ session : Session, session.Reachable → ∀ middle apart batched,
            session.add first = .ok middle → middle.add second = .ok apart →
            session.add (first ++ "," ++ second) = .ok batched →
            apart.accepted.unknowns = batched.accepted.unknowns ∧
              ∀ requests, (apart.serveAll requests).1.check = (batched.serveAll requests).1.check := by
  intro claimed
  obtain ⟨firstRead, secondRead⟩ := parseList_ascending
  obtain ⟨bothRead, same⟩ := claimed _ _ _ _ firstRead secondRead
  obtain ⟨-, sameChecks⟩ := same (new .elimination) (.new .elimination) _ _ _
    (add_of_read (by decide) firstRead _) (add_of_read (by decide) secondRead _)
    (add_of_read (by decide) bothRead _)
  have sameLogs := congrArg (Except.map Check.log) (sameChecks [])
  exact absurd sameLogs (by decide +kernel)

end Session

end Ergo
