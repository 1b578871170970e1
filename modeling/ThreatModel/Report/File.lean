import ThreatModel.FileTree.Basic
import ThreatModel.Report.Basic
import ThreatModel.Text.Utf8

/-!
# Reports in files

* `Report.writeTo`: writes the report of a set of facts; the directories on the way are made.
-/

namespace ThreatModel.Report

/-- Writes a report and gives its path in normal form. -/
def writeTo (f : Facts) (title : Option String) (path : String) : FileTask String := do
  FileTree.makeDirectories (Path.parent path)
  FileTree.write (Path.normal path) (Text.encode (ofFacts f title).toList)
  return Path.normal path

end ThreatModel.Report
