import Ergo.Linear.Row

/-!
Elimination of unknowns from rows, one after the other. An equation in the unknown is solved for
it and put into the other rows. Without such an equation every row that bounds the unknown from
below is added to every row that bounds it from above, so that the unknown cancels. The values are
then found in the opposite order.
-/

namespace Ergo.Linear

/-- A multiple of an equation taken away from a row so that the first unknown cancels. -/
def Row.cancel (equation row : Row) : Row :=
  { row with
    form := (row.form.subtract (equation.form.scale (row.form.head / equation.form.head))).tail }

/-- A lower and an upper bound of the first unknown, joined so that it cancels. -/
def Row.join (lower upper : Row) : Row :=
  { form :=
      ((lower.form.scale (-upper.form.head)).add (upper.form.scale lower.form.head)).tail
    demand := lower.demand.join upper.demand }

/-- A number above all of `lowers` and below all of `uppers`, if there is one. -/
def between (lowers uppers : List Rat) : Rat :=
  match lowers.maxOn? id, uppers.minOn? id with
  | none, none => 0
  | some lower, none => lower + 1
  | none, some upper => upper - 1
  | some lower, some upper => (lower + upper) / 2

def lowerBounds (rows : List Row) : List Row :=
  rows.filter (0 < ·.form.head)

def upperBounds (rows : List Row) : List Row :=
  rows.filter (·.form.head < 0)

def Row.tail (row : Row) : Row :=
  { row with form := row.form.tail }

/-- What `rows`, none of which is an equation in the first unknown, demand of the others. -/
def project (rows : List Row) : List Row :=
  (rows.filter (·.form.head == 0)).map Row.tail ++
    (lowerBounds rows).flatMap fun lower => (upperBounds rows).map lower.join

/-- A value of the first unknown for which `rows` hold if their projection holds at `point`. -/
def lift (rows : List Row) (point : List Rat) : Rat :=
  between ((lowerBounds rows).map (·.form.root point)) ((upperBounds rows).map (·.form.root point))

/-- An equation in the first unknown. -/
def pivot? (rows : List Row) : Option Row :=
  rows.find? fun row => row.demand == .zero && row.form.head != 0

/-- A point of `dimension` values at which all rows hold. -/
def solve? : (dimension : Nat) → List Row → Option (List Rat)
  | 0, rows => if rows.all (·.holdsAt []) then some [] else none
  | dimension + 1, rows =>
      let rows := rows.filter (!·.isTrivial)
      match pivot? rows with
      | some equation =>
          (solve? dimension (rows.map equation.cancel)).map fun point =>
            equation.form.root point :: point
      | none =>
          (solve? dimension (project rows)).map fun point => lift rows point :: point

end Ergo.Linear
