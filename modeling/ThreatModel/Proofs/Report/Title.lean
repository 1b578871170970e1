import Mathlib.Data.List.Basic
import ThreatModel.Report.Basic

/-!
# Titles — when a report is a text

The title of a report is the one part of it that may hold halves of characters.  A report under a
title that is a text is the text that `ofFacts` gives (`wideOfFacts_map_wide`); under any other
title it is no text (`narrow?_wideOfFacts_eq_none_iff`).
-/

namespace ThreatModel.Report

variable {f : Facts}

theorem wideOr_map_wide (title : Option String) (standIn : String) :
    Text.wideOr (title.map Text.wide) (Text.wide standIn) =
      Text.wide (Text.givenOr title standIn) := by
  cases title with
  | none => rfl
  | some s =>
      by_cases hs : s = ""
      · subst hs
        rfl
      · have hwide : Text.wide s ≠ [] := mt Text.wide_eq_nil_iff.mp hs
        simp [Text.wideOr, Text.givenOr, Text.given?, Option.filter, hs, hwide]

/-- Halves in the title that stands, or in the one that is given: an empty title has none. -/
theorem exists_isHalf_wideOr {title : Option Text.Wide} {standIn : String} :
    (∃ p ∈ Text.wideOr title (Text.wide standIn), p.IsHalf) ↔ ∃ w ∈ title, ∃ p ∈ w, p.IsHalf := by
  have hstandIn := Text.not_exists_isHalf_wide standIn
  cases title with
  | none => simpa [Text.wideOr] using hstandIn
  | some w =>
      cases w with
      | nil => simpa [Text.wideOr, Option.filter] using hstandIn
      | cons p w => simp [Text.wideOr, Option.filter]

/-- **Under a title that is a text the report is that text.** -/
theorem wideOfFacts_map_wide (f : Facts) (title : Option String) :
    wideOfFacts f (title.map Text.wide) = Text.wide (ofFacts f title) := by
  rw [wideOfFacts, wideOr_map_wide, ← Text.wide_append, ← Text.wide_append]
  congr 1
  rw [ofFacts, render, lines, headLines, lowerLines]
  simp [String.append_assoc]

/-- **A report is no text exactly if half of a character stands in its title.** -/
theorem narrow?_wideOfFacts_eq_none_iff {title : Option Text.Wide} :
    Text.narrow? (wideOfFacts f title) = none ↔ ∃ w ∈ title, ∃ p ∈ w, p.IsHalf := by
  rw [Text.narrow?_eq_none_iff, wideOfFacts]
  simp only [List.mem_append, or_and_right, exists_or, Text.not_exists_isHalf_wide, false_or,
    or_false]
  exact exists_isHalf_wideOr

end ThreatModel.Report
