/-!
# Given texts

A text that is missing or empty counts as not given, and something else stands in for it.

* `given?_eq_some_iff`: what is given is not empty.
-/

namespace ThreatModel.Text

/-- The text, if there is one and it is not empty. -/
def given? (s : Option String) : Option String := s.filter (· ≠ "")

/-- The text if it is given, else the one that stands in for it. -/
def givenOr (s : Option String) (standIn : String) : String := (given? s).getD standIn

/-- What is given is not empty. -/
theorem given?_eq_some_iff {s : Option String} {t : String} : given? s = some t ↔ s = some t ∧ t ≠ "" := by
  simp [given?, Option.filter_eq_some_iff]

end ThreatModel.Text
