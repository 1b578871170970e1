import ThreatModel.CallGraph
import ThreatModel.Proofs.Text.Lines
import ThreatModel.Proofs.Text.Utf8

/-!
# Sources — a call graph in bytes

Bytes are read as the text that they encode, whichever line ends stand in it (`ofSource_encode`).
They are refused as no text if and only if they are not UTF-8, and so is nothing else
(`ofSource_eq_notText_iff`).
-/

namespace ThreatModel.CallGraph

theorem ofText_unifyLineEnds (s : List Char) :
    ofText (String.ofList (Text.unifyLineEnds s)) = ofText (String.ofList s) := by
  have hempty : String.ofList (Text.unifyLineEnds s) = "" ↔ String.ofList s = "" := by
    rw [← String.toList_eq_nil_iff, ← String.toList_eq_nil_iff, String.toList_ofList,
      String.toList_ofList, ← Text.lines_eq_nil_iff, Text.lines_unifyLineEnds, Text.lines_eq_nil_iff]
  rw [ofText, ofText, String.toList_ofList, String.toList_ofList, Text.lines_unifyLineEnds]
  simp only [hempty]

/-- **A text that is encoded is read as the text.** -/
theorem ofSource_encode (text : String) :
    ofSource (.bytes (Text.encode text.toList)) = ofSource (.text text) := by
  rw [ofSource, ofSource, Text.decode?_encode]
  dsimp only
  rw [ofText_unifyLineEnds, String.ofList_toList]

/-- **Only bytes that are not UTF-8 are refused as no text.** -/
theorem ofSource_eq_notText_iff {source : Source} : ofSource source = .error .notText ↔
    ∃ bytes, source = .bytes bytes ∧ Text.decode? bytes = none := by
  have hrefused (r : Except Refusal Reading) : r.mapError .refused ≠ .error SourceError.notText := by
    cases r <;> exact nofun
  cases source with
  | absent => exact ⟨nofun, fun ⟨_, h, _⟩ => nomatch h⟩
  | terminal => exact ⟨nofun, fun ⟨_, h, _⟩ => nomatch h⟩
  | text s => exact ⟨fun h => absurd h (hrefused _), fun ⟨_, h, _⟩ => nomatch h⟩
  | bytes bytes =>
      simp only [Source.bytes.injEq, exists_eq_left']
      rw [ofSource]
      cases Text.decode? bytes with
      | none => exact ⟨fun _ => rfl, fun _ => rfl⟩
      | some s => exact ⟨fun h => absurd h (hrefused _), nofun⟩

end ThreatModel.CallGraph
