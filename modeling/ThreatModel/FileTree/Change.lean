import ThreatModel.FileTree.Basic

/-!
# Changes — how one file tree becomes another

The changes between two trees are listed in an order in which they can be made: files that go, directories that come, each
after those around it, and files that are written.

* `FileTree.changes`: the changes from one tree to another.
-/

namespace ThreatModel

/-- A change of a file tree. -/
inductive FileChange where
  | removeFile (place : List String)
  | makeDirectory (place : List String)
  | writeFile (place : List String) (bytes : List UInt8)
deriving DecidableEq, Repr

namespace FileTree

/-- The path from the top to a place. -/
def pathTo (place : List String) : String := "/" ++ String.intercalate "/" place

/-- The files of a tree that another does not have. -/
def removed (t later : FileTree) : List FileChange :=
  t.nodes.keys.filterMap fun place => if (later.node? place).isNone then some (.removeFile place) else none

/-- The nodes of a tree that another does not have. -/
def added (t earlier : FileTree) : List (List String × FileNode) :=
  t.nodes.toList.filter fun (place, n) => earlier.node? place ≠ some n

/-- The changes from a tree to a later one. -/
def changes (t later : FileTree) : List FileChange :=
  let new := later.added t
  t.removed later ++
    (new.filterMap fun (place, n) => if n = .directory then some (.makeDirectory place) else none) ++
    new.filterMap fun (place, n) =>
      match n with
      | .file bytes => some (.writeFile place bytes)
      | .directory  => none

end FileTree

end ThreatModel
