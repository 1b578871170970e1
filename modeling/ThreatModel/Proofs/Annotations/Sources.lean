import ThreatModel.Proofs.Annotations.Spans

/-!
# Sources — what one reader makes of sources, in terms of the sources

A source is a file's name and its text.  No state of the reader is carried from one source to the
next, so each part of the facts is made of what the sources have each by itself: their headers with
the lines of their spans (`records_factsOf`, `account_factsOf`), the packages they declare
and the functions they define.
-/

namespace ThreatModel.Annotations

/-- The facts of sources, read with or without rebinding. -/
def factsOf (rebind : Bool) (sources : List (String × String)) : Facts :=
  ((Reader.usual rebind).readSources .empty sources).1

namespace Header

variable (h : Header)

theorem site_opened : h.opened.site = none := by
  rw [opened, heading?]
  split
  · cases Form.header.pattern.match? h.line <;> rfl
  · rfl

theorem opened_account (rebind : Bool) : (h.account rebind).record.opened = h.opened.opened :=
  Account.opened_addAll

theorem key_account (rebind : Bool) : (h.account rebind).record.key = h.opened.key := by
  rw [← FunctionRecord.key_opened, opened_account, FunctionRecord.key_opened]

theorem shortName_account (rebind : Bool) :
    (h.account rebind).record.shortName = h.opened.shortName := by
  rw [← FunctionRecord.shortName_opened, opened_account, FunctionRecord.shortName_opened]

end Header

section
variable (rebind : Bool) (sources : List (String × String))

theorem factsOf_eq : factsOf rebind sources =
    parseAll .empty (sources.map fun (file, text) => ⟨rebind, file, text⟩) :=
  readSources_eq_parseAll rebind .empty sources

/-- The accounts of sources are those of their headers. -/
theorem accounts_factsOf : (factsOf rebind sources).accounts =
    (sources.flatMap headersOf).map (Header.account rebind) := by
  rw [factsOf_eq, accounts_parseAll Facts.countsRecords_empty, List.flatMap_map,
    List.map_flatMap]
  rfl

theorem account_factsOf {id : RecordId} {h : Header}
    (hget : (sources.flatMap headersOf)[id]? = some h) :
    (factsOf rebind sources).account id = h.account rebind := by
  have haccount := Facts.getElem?_accounts (factsOf rebind sources) id
  rw [accounts_factsOf, List.getElem?_map, hget, Option.map_some] at haccount
  split at haccount
  · exact (Option.some.inj haccount).symm
  · cases haccount

theorem records_factsOf : (factsOf rebind sources).records =
    (sources.flatMap headersOf).map fun h => (h.account rebind).record := by
  rw [← Facts.map_record_accounts, accounts_factsOf, List.map_map]
  rfl

theorem recordKeys_factsOf : (factsOf rebind sources).recordKeys =
    (sources.flatMap headersOf).map fun h => h.opened.key := by
  rw [Facts.recordKeys, records_factsOf, List.map_map]
  exact List.map_congr_left fun h _ => h.key_account rebind

theorem filed_factsOf : (factsOf rebind sources).Filed := by
  rw [factsOf_eq]
  exact filed_parseAll Facts.filed_empty _

theorem countsRecords_factsOf :
    (factsOf rebind sources).CountsRecords := by
  rw [factsOf_eq]
  exact countsRecords_parseAll Facts.countsRecords_empty _

theorem packages_factsOf :
    (factsOf rebind sources).packages = sources.flatMap packagesOf := by
  rw [factsOf_eq, packages_parseAll, List.flatMap_map]
  rfl

theorem found_factsOf : (factsOf rebind sources).found =
    Tally.ofList (sources.flatMap definitionsOf) := by
  rw [factsOf_eq, found_parseAll, List.flatMap_map]
  rfl

theorem tested_factsOf : (factsOf rebind sources).tested =
    Tally.ofList (testedFunctions (factsOf rebind sources).records) := by
  rw [factsOf_eq]
  exact tested_parseAll rfl _

end

end ThreatModel.Annotations
