
/-!
# Severity — how bad a component or a call looks

A component, or a call into one, is the worse the more of its exposures stand without a mitigation.  Severities are shown as
colours, from black over dark green and orange to red.

* `Severity.ofCounts?`: the severity of counted mitigations and exposures; none of either gives no severity.
* `bundleSeverity`: the worst severity of a bundle of calls.
* `bundleLabel`: the label of a bundle, call by call or summed up.
-/

namespace ThreatModel

/-- The severities, from the least to the worst. -/
inductive Severity where
  | neutral
  | mitigated
  | partly
  | exposed
deriving DecidableEq, Repr

namespace Severity

/-- The colour of a severity. -/
def color : Severity → String
  | neutral   => "black"
  | mitigated => "darkgreen"
  | partly    => "orange"
  | exposed   => "red"

/-- The severities in order of weight. -/
def rank : Severity → Nat
  | neutral   => 0
  | mitigated => 1
  | partly    => 2
  | exposed   => 3

/-- The severity of counted mitigations and exposures. -/
def ofCounts? (mitigations exposures : Int) : Option Severity :=
  if 0 < exposures then some (if 0 < mitigations then partly else exposed)
  else if 0 < mitigations then some mitigated
  else none

end Severity

/-- A call into the components of a function. -/
structure Call where
  callee : String
  mitigations : Int
  exposures : Int
deriving DecidableEq, Repr

/-- A piece of a label in its colour. -/
structure LabelPart where
  text : String
  color : String
deriving DecidableEq, Repr

/-- The lines of a label. -/
abbrev Label : Type := List (List LabelPart)

/-- The severity of one call. -/
def Call.severity (c : Call) : Severity := (Severity.ofCounts? c.mitigations c.exposures).getD .neutral

/-- The worst severity of a bundle of calls. -/
def bundleSeverity (calls : List Call) : Severity :=
  ([.exposed, .partly, .mitigated].find? fun s => calls.any fun c => c.severity = s).getD .neutral

/-- Bundles of this many calls and more are summed up. -/
def summaryThreshold : Nat := 3

/-- The elements of a list without those that came before. -/
def distinct {α : Type} [DecidableEq α] : List α → List α
  | []     => []
  | a :: s => a :: (distinct s).filter (· ≠ a)

/-- The sum of what is counted in each call. -/
def callSum (count : Call → Int) (calls : List Call) : Int := calls.foldl (fun n c => n + count c) 0

/-- The sums of a bundle: exposures, mitigations, and the calls that are left; these are not negative if `clamp` is on. -/
def summaryLine (calls : List Call) (clamp : Bool) : List LabelPart :=
  let exposed := callSum Call.exposures calls
  let mitigated := callSum Call.mitigations calls
  let other := calls.length - exposed - mitigated
  let other := if clamp ∧ other < 0 then 0 else other
  [⟨Int.repr exposed, Severity.exposed.color⟩, ⟨Int.repr mitigated, Severity.mitigated.color⟩,
    ⟨Int.repr other, Severity.neutral.color⟩]

/-- The label of a bundle: one line with sums from `summaryThreshold` calls on, else a line for each distinct call. -/
def bundleLabel (calls : List Call) (clamp : Bool) : Label :=
  if summaryThreshold ≤ calls.length then [summaryLine calls clamp]
  else distinct (calls.map fun c => [⟨c.callee, c.severity.color⟩])

end ThreatModel
