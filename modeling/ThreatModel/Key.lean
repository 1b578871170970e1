import ThreatModel.Text.Lower

/-!
# Keys — the normal form of a zone's or component's name

Two spellings name the same zone or component when they agree in lower case on the letters a–z and the digits 0–9; nothing
else counts.

* `keyOf_chars`: a key holds a–z and 0–9 only.
-/

namespace ThreatModel

/-- A letter a–z or a digit 0–9. -/
def isKeyChar (c : Char) : Bool := ('a' ≤ c && c ≤ 'z') || ('0' ≤ c && c ≤ '9')

/-- The normal form of a name. -/
def keyOf (name : String) : String := String.ofList ((Text.lower name.toList).filter isKeyChar)

/-- A key holds a–z and 0–9 only. -/
theorem keyOf_chars {name : String} {c : Char} (h : c ∈ (keyOf name).toList) : isKeyChar c = true := by
  simp only [keyOf, String.toList_ofList, List.mem_filter] at h
  exact h.2

end ThreatModel
