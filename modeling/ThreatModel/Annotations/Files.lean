import ThreatModel.Annotations.Reader
import ThreatModel.FileTree.Basic
import ThreatModel.Text.Utf8

/-!
# Sources in files

Sources are files in UTF-8.  What is not UTF-8 in them is read as U+FFFD.

* `Reader.readFiles`: the facts of files, read in order.
-/

namespace ThreatModel.Annotations.Reader

/-- The sources in files. -/
def sourcesOf (t : FileTree) (paths : List String) : Except FileError (List (String × String)) :=
  paths.mapM fun path => do
    let bytes ← t.read path
    return (path, String.ofList (Text.decodeLossy bytes))

/-- The facts of files, and what was reported. -/
def readFiles (r : Reader) (t : FileTree) (paths : List String) : Except FileError (Facts × List Event) := do
  return r.readSources .empty (← sourcesOf t paths)

end ThreatModel.Annotations.Reader
