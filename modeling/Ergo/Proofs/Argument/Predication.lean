import Ergo.Argument.Translation
import Ergo.Proofs.Argument.Definitions

/-!
Predications as premises and as conclusions. A premise takes the nearest thing before the copula and
a negation before the complement; a conclusion tries its negated form first, which takes the first
thing of the sentence. The two agree where no negated form applies and the complement is not
negated, and differ at most in the subject where the first negation stands before a predicate.
-/

namespace Ergo.English

namespace Sentence

variable {α : Type} {find : Nat → Option α} {start stop : Nat} {value : α}

theorem findSome?_span_eq_some_iff :
    (span start stop).findSome? find = some value ↔
      ∃ place, start ≤ place ∧ place < stop ∧ find place = some value ∧
        ∀ earlier, start ≤ earlier → earlier < place → find earlier = none := by
  rw [span, List.findSome?_eq_some_iff]
  constructor
  · rintro ⟨before, place, after, split, found, missing⟩
    obtain ⟨count, within, rfl, rest⟩ := List.range'_eq_append_iff.mp split
    rw [Nat.mul_one] at rest
    obtain ⟨rfl, nonempty, _⟩ := List.range'_eq_cons_iff.mp rest.symm
    refine ⟨start + count, by omega, by omega, found, ?_⟩
    intro earlier fromStart before
    apply missing
    rw [List.mem_range'_1]
    exact ⟨fromStart, before⟩
  · rintro ⟨place, fromStart, beforeStop, found, missing⟩
    refine ⟨List.range' start (place - start), place,
      List.range' (place + 1) (stop - (place + 1)), ?_, found, ?_⟩
    · apply List.range'_eq_append_iff.mpr
      refine ⟨place - start, by omega, rfl, Eq.symm ?_⟩
      rw [List.range'_eq_cons_iff]
      refine ⟨by omega, by omega, ?_⟩
      congr 1
      omega
    · intro earlier member
      rw [List.mem_range'_1] at member
      exact missing earlier member.1 (by omega)

theorem negatedAt_of_negation? {sentence : Sentence} {marker : Nat}
    (first : sentence.negation? = some marker) : sentence.negatedAt marker = true := by
  obtain ⟨inside, negates, _⟩ := List.findIdx?_eq_some_iff_getElem.mp first
  rw [negatedAt, form, List.getElem?_eq_getElem inside]
  exact negates

end Sentence

namespace Vocabulary

variable {vocabulary : Vocabulary} {sentence : Sentence}

def Complement.formula? (subject : String) : Complement → Option Formula
  | .predicate headword => (predicateName headword).map fun name => .property name subject
  | .entity _ => none
  | .relation phrase object => (relationName phrase).map fun name => .link name subject object

theorem assertion?_complementTranslation (subject : String) (negated : Bool)
    (complement : Complement) :
    (complementTranslation subject negated complement).assertion? =
      (complement.formula? subject).map (Formula.signed negated) := by
  cases complement with
  | entity name => rfl
  | predicate headword =>
      simp only [complementTranslation, Complement.formula?]
      cases predicateName headword <;> rfl
  | relation phrase object =>
      simp only [complementTranslation, Complement.formula?]
      cases relationName phrase <;> rfl

/-! ## Complements and conclusions at one place -/

theorem conclusionAt?_eq_none {subject : String} {place : Nat}
    (missing : vocabulary.complementAt? sentence place = none) :
    vocabulary.conclusionAt? sentence subject place = none := by
  simp only [complementAt?, Option.or_eq_none_iff, Option.map_eq_none_iff] at missing
  obtain ⟨noPhrase, noPredicate, _, noWord⟩ := missing
  simp [conclusionAt?, noPhrase, noPredicate, noWord]

theorem predicateAt?_eq_none {place : Nat}
    (missing : vocabulary.complementAt? sentence place = none) :
    sentence.words[place]?.bind vocabulary.predicate? = none := by
  simp only [complementAt?, Option.or_eq_none_iff, Option.map_eq_none_iff] at missing
  exact missing.2.1

theorem predicateAt?_eq_some {place : Nat} {headword : String}
    (found : vocabulary.complementAt? sentence place = some (.predicate headword)) :
    sentence.words[place]?.bind vocabulary.predicate? = some headword := by
  unfold complementAt? at found
  cases phrase : vocabulary.relatedAt? sentence true place with
  | some related => simp [phrase] at found
  | none =>
      cases predicate : sentence.words[place]?.bind vocabulary.predicate? with
      | some known => simpa [phrase, predicate] using found
      | none =>
          cases entity : sentence.words[place]?.bind vocabulary.entity? <;>
            simp [phrase, predicate, entity] at found

/-- At its place a complement is also what a conclusion says. -/
theorem conclusionAt?_eq_some {subject : String} {place : Nat} {complement : Complement}
    {formula : Formula} (found : vocabulary.complementAt? sentence place = some complement)
    (states : complement.formula? subject = some formula) :
    vocabulary.conclusionAt? sentence subject place = some formula := by
  unfold complementAt? at found
  unfold conclusionAt?
  cases phrase : vocabulary.relatedAt? sentence true place with
  | some related =>
      obtain rfl : .relation related.1 related.2 = complement := by simpa [phrase] using found
      obtain ⟨name, named, rfl⟩ := Option.map_eq_some_iff.mp states
      simp [phrase, named]
  | none =>
      cases predicate : sentence.words[place]?.bind vocabulary.predicate? with
      | some headword =>
          obtain rfl : .predicate headword = complement := by
            simpa [phrase, predicate] using found
          obtain ⟨name, named, rfl⟩ := Option.map_eq_some_iff.mp states
          simp [phrase, named]
      | none =>
          cases entity : sentence.words[place]?.bind vocabulary.entity? with
          | some thing =>
              obtain rfl : .entity thing = complement := by
                simpa [phrase, predicate, entity] using found
              exact absurd states (by simp [Complement.formula?])
          | none =>
              obtain ⟨related, word, rfl⟩ :
                  ∃ related, vocabulary.relatedAt? sentence false place = some related ∧
                    .relation related.1 related.2 = complement := by
                simpa [phrase, predicate, entity] using found
              obtain ⟨name, named, rfl⟩ := Option.map_eq_some_iff.mp states
              simp [phrase, word, named]

/-! ## Whole predications -/

/-- A copula with the thing and the complement that it joins. -/
structure Predication where
  copula : Nat
  subject : String
  place : Nat
  complement : Complement

def joined? (vocabulary : Vocabulary) (sentence : Sentence) : Option Predication := do
  let copula ← sentence.copula?
  let (_, subject) ← vocabulary.entityAmong? sentence (Sentence.backwards copula)
  let (place, complement) ← vocabulary.complementFrom? sentence (copula + 1)
  return ⟨copula, subject, place, complement⟩

namespace Predication

def isNegated (sentence : Sentence) (predication : Predication) : Bool :=
  (Sentence.span (predication.copula + 1) predication.place).any sentence.negatedAt

/-- What is said of the subject, leaving a negation out. -/
def formula? (predication : Predication) : Option Formula :=
  predication.complement.formula? predication.subject

end Predication

theorem predication?_eq_map :
    vocabulary.predication? sentence = (vocabulary.joined? sentence).map fun predication =>
      complementTranslation predication.subject (predication.isNegated sentence)
        predication.complement := by
  unfold predication? joined?
  cases sentence.copula? with
  | none => rfl
  | some copula =>
      simp only [Option.bind_eq_bind, Option.bind_some]
      cases vocabulary.entityAmong? sentence (Sentence.backwards copula) with
      | none => rfl
      | some found =>
          simp only [Option.bind_some]
          cases vocabulary.complementFrom? sentence (copula + 1) <;> rfl

/-- A premise that is a predication asserts what it says of its subject, or the negation. -/
theorem joined?_of_asserted {formula : Formula} (category : sentence.category = .predication)
    (asserted : formula ∈
      (Definitions.empty.apply (vocabulary.translate sentence)).1.assertions) :
    ∃ predication stated, vocabulary.joined? sentence = some predication ∧
      predication.formula? = some stated ∧
      formula = .signed (predication.isNegated sentence) stated := by
  rcases Definitions.mem_assertions_apply asserted with earlier | stated
  · exact absurd earlier List.not_mem_nil
  · simp only [translate, category, predication?_eq_map] at stated
    cases joined : vocabulary.joined? sentence with
    | none => simp [joined, Translation.nothing] at stated
    | some predication =>
        rw [joined, Option.map_some, Option.getD_some, assertion?_complementTranslation] at stated
        obtain ⟨unsigned, states, rfl⟩ := Option.map_eq_some_iff.mp stated
        exact ⟨predication, unsigned, rfl, states, rfl⟩

theorem joined?_eq_some {predication : Predication}
    (joined : vocabulary.joined? sentence = some predication) :
    sentence.copula? = some predication.copula ∧
      (∃ nearest, vocabulary.entityAmong? sentence (Sentence.backwards predication.copula) =
        some (nearest, predication.subject)) ∧
      predication.copula < predication.place ∧ predication.place < sentence.length ∧
      vocabulary.complementAt? sentence predication.place = some predication.complement ∧
      ∀ place, predication.copula < place → place < predication.place →
        vocabulary.complementAt? sentence place = none := by
  simp only [joined?, Option.bind_eq_bind, Option.bind_eq_some_iff, Option.pure_def,
    Option.some.injEq] at joined
  obtain ⟨copula, isCopula, ⟨nearest, subject⟩, isSubject, ⟨place, complement⟩, found, rfl⟩ :=
    joined
  obtain ⟨_, fromStart, beforeStop, here, missing⟩ :=
    Sentence.findSome?_span_eq_some_iff.mp found
  obtain ⟨_, isComplement, same⟩ := Option.map_eq_some_iff.mp here
  obtain ⟨rfl, rfl⟩ := Prod.mk.inj same
  refine ⟨isCopula, ⟨nearest, isSubject⟩, fromStart, beforeStop, isComplement, ?_⟩
  intro earlier afterCopula beforeComplement
  exact Option.map_eq_none_iff.mp (missing earlier afterCopula beforeComplement)

/-! ## Conclusions -/

/-- Without a negated form a conclusion says what the premise says, but for a negation. -/
theorem conclusion?_of_joined {predication : Predication} {stated : Formula}
    (joined : vocabulary.joined? sentence = some predication)
    (states : predication.formula? = some stated)
    (noForm : vocabulary.negatedPredication? sentence = none) :
    vocabulary.conclusion? sentence = some stated := by
  obtain ⟨isCopula, ⟨nearest, isSubject⟩, afterCopula, inside, isComplement, missing⟩ :=
    joined?_eq_some joined
  have concluded : (sentence.onwards (predication.copula + 1)).findSome?
      (vocabulary.conclusionAt? sentence predication.subject) = some stated := by
    apply Sentence.findSome?_span_eq_some_iff.mpr
    refine ⟨predication.place, afterCopula, inside,
      conclusionAt?_eq_some isComplement states, ?_⟩
    -- A place without a complement says nothing in a conclusion either.
    intro earlier fromCopula beforeComplement
    exact conclusionAt?_eq_none (missing earlier fromCopula beforeComplement)
  simp only [conclusion?, noForm, isCopula, isSubject, Option.bind_eq_bind, Option.bind_some]
  exact concluded

theorem exists_firstEntity {copula marker nearest : Nat} {subject : String}
    (known : vocabulary.entityAmong? sentence (Sentence.backwards copula) =
      some (nearest, subject)) (further : copula ≤ marker) :
    ∃ place first,
      vocabulary.entityAmong? sentence (Sentence.span 0 copula) = some (place, first) ∧
        vocabulary.entityAmong? sentence (Sentence.span 0 marker) = some (place, first) := by
  unfold entityAmong? at known ⊢
  obtain ⟨somewhere, before, isThere⟩ := List.exists_of_findSome?_eq_some known
  have listed : somewhere ∈ Sentence.span 0 copula := by
    rw [Sentence.backwards, List.mem_reverse, List.mem_range] at before
    rw [Sentence.span, List.mem_range'_1]
    omega
  have isFound : ((Sentence.span 0 copula).findSome? fun place =>
      (sentence.words[place]?.bind vocabulary.entity?).map (place, ·)).isSome = true := by
    apply List.findSome?_isSome_iff.mpr
    exact ⟨somewhere, listed, Option.isSome_of_eq_some isThere⟩
  obtain ⟨⟨place, first⟩, found⟩ := Option.isSome_iff_exists.mp isFound
  refine ⟨place, first, found, ?_⟩
  obtain ⟨least, fromStart, beforeCopula, here, missing⟩ :=
    Sentence.findSome?_span_eq_some_iff.mp found
  exact Sentence.findSome?_span_eq_some_iff.mpr
    ⟨least, fromStart, by omega, here, missing⟩

/-- A negation before a predicate gives a negated form with the same predicate. -/
theorem negatedPredication?_of_joined {predication : Predication} {headword : String}
    {marker : Nat} (joined : vocabulary.joined? sentence = some predication)
    (isPredicate : predication.complement = .predicate headword)
    (isFirst : sentence.negation? = some marker) (afterCopula : predication.copula < marker)
    (beforeComplement : marker < predication.place) :
    ∃ place first,
      vocabulary.entityAmong? sentence (Sentence.span 0 predication.copula) =
        some (place, first) ∧
        vocabulary.negatedPredication? sentence = some (first, headword) := by
  obtain ⟨_, ⟨nearest, isSubject⟩, _, inside, isComplement, missing⟩ := joined?_eq_some joined
  obtain ⟨place, first, beforeCopula, beforeMarker⟩ :=
    exists_firstEntity isSubject (Nat.le_of_lt afterCopula)
  have predicateAfter : vocabulary.predicateAmong? sentence (sentence.onwards (marker + 1)) =
      some headword := by
    apply Sentence.findSome?_span_eq_some_iff.mpr
    rw [isPredicate] at isComplement
    refine ⟨predication.place, beforeComplement, inside,
      predicateAt?_eq_some isComplement, ?_⟩
    intro earlier fromMarker before
    exact predicateAt?_eq_none (missing earlier (by omega) before)
  refine ⟨place, first, beforeCopula, ?_⟩
  simp [negatedPredication?, isFirst, beforeMarker, predicateAfter]

/-- What a predication asserts as a premise, and what it says as a conclusion: the same where it has
no negated form and its complement is not negated; its negated form where it has one; and the
same predicate of the first thing before the copula, also negated, where the first negation stands
before a predicate. -/
theorem conclusion_of_predication {formula : Formula}
    (category : sentence.category = .predication)
    (asserted : formula ∈
      (Definitions.empty.apply (vocabulary.translate sentence)).1.assertions) :
    ∃ predication, vocabulary.joined? sentence = some predication ∧
      (vocabulary.negatedPredication? sentence = none →
        predication.isNegated sentence = false →
          vocabulary.conclusion? sentence = some formula) ∧
      (∀ subject headword,
        vocabulary.negatedPredication? sentence = some (subject, headword) →
          vocabulary.conclusion? sentence =
            (predicateName headword).map fun name => .not (.property name subject)) ∧
      ∀ headword marker, predication.complement = .predicate headword →
        sentence.negation? = some marker → predication.copula < marker →
          marker < predication.place →
            ∃ name place first, predicateName headword = some name ∧
              formula = .not (.property name predication.subject) ∧
              vocabulary.entityAmong? sentence (Sentence.span 0 predication.copula) =
                some (place, first) ∧
              vocabulary.conclusion? sentence = some (.not (.property name first)) := by
  obtain ⟨predication, stated, joined, states, rfl⟩ := joined?_of_asserted category asserted
  refine ⟨predication, joined, ?_, ?_, ?_⟩
  · intro noForm notNegated
    rw [notNegated]
    exact conclusion?_of_joined joined states noForm
  · intro subject headword hasForm
    rw [conclusion?, hasForm]
  · intro headword marker isPredicate isFirst afterCopula beforeComplement
    obtain ⟨place, first, beforeCopula, hasForm⟩ :=
      negatedPredication?_of_joined joined isPredicate isFirst afterCopula beforeComplement
    have negated : predication.isNegated sentence = true := by
      apply List.any_eq_true.mpr
      refine ⟨marker, ?_, Sentence.negatedAt_of_negation? isFirst⟩
      rw [Sentence.span, List.mem_range'_1]
      omega
    rw [Predication.formula?, isPredicate] at states
    obtain ⟨name, named, rfl⟩ := Option.map_eq_some_iff.mp states
    refine ⟨name, place, first, named, ?_, beforeCopula, ?_⟩
    · rw [negated]
      rfl
    · rw [conclusion?, hasForm]
      simp [named]

/-! ## A sentence with two things before its copula -/

def dogAndAlice : Vocabulary :=
  { entities := { names := ["dog", "alice"] }
    predicates := { names := ["happy"] }
    relations := .empty }

def dogOfAlice : Sentence :=
  { text := "The dog of Alice is not happy"
    words := [⟨"the", .determiner, "the"⟩, ⟨"dog", .noun, "dog"⟩, ⟨"of", .preposition, "of"⟩,
      ⟨"alice", .properNoun, "alice"⟩, ⟨"is", .verb, "be"⟩, ⟨"not", .adverb, "not"⟩,
      ⟨"happy", .adjective, "happy"⟩]
    namedEntities := [⟨.person, "Alice"⟩] }

theorem analyze_dogOfAlice :
    Sentence.analyze .ruleBased "The dog of Alice is not happy" = dogOfAlice := by
  decide +kernel

/-- The dog is not happy if that is to be concluded, while the premise is about Alice. -/
theorem dogOfAlice_predicates :
    dogOfAlice.category = .predication ∧
      .not (.property "Happy" "alice") ∈
        (Definitions.empty.apply (dogAndAlice.translate dogOfAlice)).1.assertions ∧
      ∃ predication, dogAndAlice.joined? dogOfAlice = some predication ∧
        dogAndAlice.conclusion? dogOfAlice = some (.not (.property "Happy" "dog")) := by
  have category : dogOfAlice.category = .predication := by
    decide +kernel
  have asserted : .not (.property "Happy" "alice") ∈
      (Definitions.empty.apply (dogAndAlice.translate dogOfAlice)).1.assertions := by
    decide +kernel
  have hasForm : dogAndAlice.negatedPredication? dogOfAlice = some ("dog", "happy") := by
    decide +kernel
  have named : predicateName "happy" = some "Happy" := by
    decide +kernel
  obtain ⟨predication, joined, _, negatedForm, _⟩ :=
    conclusion_of_predication category asserted
  refine ⟨category, asserted, predication, joined, ?_⟩
  rw [negatedForm "dog" "happy" hasForm, named]
  rfl

/-- A premise and a conclusion of the same words need not say the same. -/
theorem not_conclusion_eq_assertion :
    ¬ ∀ (vocabulary : Vocabulary) (toolkit : Toolkit) (text : String) (formula : Formula),
      (Sentence.analyze toolkit text).category = .predication →
        formula ∈ (Definitions.empty.apply
          (vocabulary.translate (Sentence.analyze toolkit text))).1.assertions →
          vocabulary.conclusion? (Sentence.analyze toolkit text) = some formula := by
  intro claimed
  have same := claimed dogAndAlice .ruleBased "The dog of Alice is not happy"
    (.not (.property "Happy" "alice"))
  rw [analyze_dogOfAlice] at same
  have concluded : dogAndAlice.conclusion? dogOfAlice = some (.not (.property "Happy" "dog")) := by
    decide +kernel
  have equal := (same (by decide +kernel) (by decide +kernel)).symm.trans concluded
  exact absurd equal (by decide +kernel)

end Vocabulary

end Ergo.English
