/-!
Linear forms over a fixed list of unknowns, and rows that demand that a form be zero, at least
zero or above zero. A point lists the values of the unknowns; unknowns beyond the end of a point
or of a form's coefficients count as zero.
-/

namespace Ergo.Linear

def dot : List Rat → List Rat → Rat
  | coefficient :: coefficients, value :: values => coefficient * value + dot coefficients values
  | _, _ => 0

/-- Two lists added place by place; what is left over of the longer one stays. -/
def addCoefficients : List Rat → List Rat → List Rat
  | first :: firsts, second :: seconds => (first + second) :: addCoefficients firsts seconds
  | [], seconds => seconds
  | firsts, [] => firsts

structure Form where
  coefficients : List Rat
  constant : Rat
  deriving DecidableEq, Repr

namespace Form

def value (form : Form) (point : List Rat) : Rat :=
  dot form.coefficients point + form.constant

def ofConstant (value : Rat) : Form :=
  { coefficients := [], constant := value }

def add (left right : Form) : Form :=
  { coefficients := addCoefficients left.coefficients right.coefficients
    constant := left.constant + right.constant }

def scale (factor : Rat) (form : Form) : Form :=
  { coefficients := form.coefficients.map (factor * ·)
    constant := factor * form.constant }

def subtract (left right : Form) : Form :=
  left.add (right.scale (-1))

def head (form : Form) : Rat :=
  form.coefficients.headD 0

def tail (form : Form) : Form :=
  { form with coefficients := form.coefficients.tail }

/-- The value of the first unknown at which the form is zero, the others being at `point`. -/
def root (form : Form) (point : List Rat) : Rat :=
  -(form.tail.value point) / form.head

end Form

inductive Demand
  | zero
  | nonnegative
  | positive
  deriving DecidableEq, Repr

def Demand.holds : Demand → Rat → Bool
  | .zero, value => value == 0
  | .nonnegative, value => 0 ≤ value
  | .positive, value => 0 < value

/-- What is demanded of the sum of two numbers that are not negative. -/
def Demand.join : Demand → Demand → Demand
  | .positive, _ => .positive
  | _, .positive => .positive
  | _, _ => .nonnegative

structure Row where
  form : Form
  demand : Demand
  deriving DecidableEq, Repr

def Row.holdsAt (row : Row) (point : List Rat) : Bool :=
  row.demand.holds (row.form.value point)

/-- Whether a row holds at every point because its form is a number. -/
def Row.isTrivial (row : Row) : Bool :=
  row.form.coefficients.all (· == 0) && row.demand.holds row.form.constant

end Ergo.Linear
