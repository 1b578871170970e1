import ThreatModel.Component
import ThreatModel.Number.Shortest
import ThreatModel.Text.Given
import ThreatModel.Text.Wide

/-!
# The report — coverage and threats in text

The report gives the coverage of a set of facts, and then every component of a table with its threats; under each threat
stand its mitigations, and after them its exposures, each with the function it comes from and where that was found.

* `Report.lines`: the lines of a report.
* `Report.render`: its text.
* `Report.wideOfFacts`: the text under any title.
-/

namespace ThreatModel.Report

/-- The share in percent with two places. -/
def percent (p : Except PercentageError Binary64) : String :=
  match p with
  | .ok x    => x.fixed2
  | .error e => e.message

/-- Where a function was found: file and line, a question mark for each that is missing. -/
def location (site : Option CodeSite) : String :=
  let file := Text.givenOr (site.map CodeSite.file) "?"
  let line := match site.map CodeSite.line with
    | some n => if n = 0 then "?" else Int.repr n
    | none   => "?"
  file ++ ":" ++ line

/-- The line of one mitigation or exposure. -/
def entryLine (kind : String) (p : Provenance) : String :=
  "* " ++ kind ++ ": " ++ p.fact.description ++ " (" ++ p.function ++ " in " ++ location p.site ++ ")"

/-- The lines of a threat: its name, its mitigations, its exposures, a blank line. -/
def threatLines (name : String) (t : ThreatRecord) : List String :=
  ["### Threat: " ++ name] ++ t.mitigations.map (entryLine "Mitigation") ++ t.exposures.map (entryLine "Exposure") ++ [""]

/-- The lines of a component: its zone and name, and its threats. -/
def componentLines (c : Component) : List String :=
  ("## " ++ c.place.zone ++ " " ++ c.place.component) :: c.threats.toList.flatMap fun (name, t) => threatLines name t

/-- What stands before the title. -/
def heading : String := "# ThreatSpec Report for "

/-- The lines between the title and the components. -/
def analysisLines (c : Coverage) : List String :=
  ["",
    "# Analysis",
    "* Functions found: " ++ Int.repr c.found,
    "* Functions covered: " ++ percent c.coveredPercent ++ "% (" ++ Int.repr c.covered ++ ")",
    "* Functions tested: " ++ percent c.testedPercent ++ "% (" ++ Int.repr c.tested ++ ")",
    "",
    "# Components"]

/-- The lines above the components. -/
def headLines (title : Option String) (c : Coverage) : List String :=
  (heading ++ Text.givenOr title "...") :: analysisLines c

/-- The lines of a report. -/
def lines (title : Option String) (c : Coverage) (table : ComponentTable) : List String :=
  headLines title c ++ table.values.flatMap componentLines

/-- The text of a report, every line closed by a newline. -/
def render (title : Option String) (c : Coverage) (table : ComponentTable) : String :=
  String.join ((lines title c table).map (· ++ "\n"))

/-- The report of a set of facts. -/
def ofFacts (f : Facts) (title : Option String) : String := render title f.coverage (ComponentTable.analyze f)

/-- The lines of a report below its title. -/
def lowerLines (f : Facts) : List String :=
  analysisLines f.coverage ++ (ComponentTable.analyze f).values.flatMap componentLines

/-- The report of a set of facts under a title that may hold halves of characters. -/
def wideOfFacts (f : Facts) (title : Option Text.Wide) : Text.Wide :=
  Text.wide heading ++ Text.wideOr title (Text.wide "...") ++
    Text.wide (String.join ("\n" :: (lowerLines f).map (· ++ "\n")))

end ThreatModel.Report
