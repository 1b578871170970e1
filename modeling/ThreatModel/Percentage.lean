import ThreatModel.Number.Binary64

/-!
# Percentages

The share of one count in another, in percent and rounded to two decimal places.  The quotient is rounded to a double
first, and the places are taken from that double.  A share of nothing is zero.

* `percentage_zero`: a share of nothing.
-/

namespace ThreatModel

/-- The quotient of two counts is no finite double. -/
inductive PercentageError where
  | tooLarge
deriving DecidableEq, Repr

/-- What is reported of the error. -/
def PercentageError.message : PercentageError → String
  | tooLarge => "integer division result too large for a float"

/-- `100 · part / whole`, rounded to two places. -/
def percentage (part whole : Int) : Except PercentageError Binary64 :=
  if whole = 0 then .ok (.zero false)
  else
    let negative := decide (part < 0) != decide (whole < 0)
    match Binary64.ofRatio negative (100 * part.natAbs) whole.natAbs with
    | .infinity _ => .error .tooLarge
    | x           => .ok x.roundHundredths

/-- A share of nothing is zero. -/
@[simp] theorem percentage_zero (part : Int) : percentage part 0 = .ok (.zero false) := rfl

end ThreatModel
