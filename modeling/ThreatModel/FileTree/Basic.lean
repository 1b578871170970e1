import ThreatModel.FileTree.Path
import ThreatModel.Ledger

/-!
# File trees — files and directories by path

A `FileTree` holds files and directories by the names that lead to them from the top, and a working directory at which
relative paths start.  A `FileTask` works on a tree and keeps what it has done when it fails.

* `follow`: the place a path leads to; only the last name may lead to nothing.
* `read`, `write`, `makeDirectories`, `remove`.
* `node?_put`: what putting a node at a place changes.
-/

namespace ThreatModel

/-- Why a path cannot be used. -/
inductive FileError where
  | notFound
  | isDirectory
  | notDirectory
  | alreadyThere
  /-- A name has half of a character in it. -/
  | halfCharacter
deriving DecidableEq, Repr

/-- What is reported of a path that cannot be used. -/
def FileError.message : FileError → String
  | notFound      => "No such file or directory"
  | isDirectory   => "Is a directory"
  | notDirectory  => "Not a directory"
  | alreadyThere  => "File exists"
  | halfCharacter => "File name with half of a character"

/-- What stands at a place. -/
inductive FileNode where
  | file (bytes : List UInt8)
  | directory
deriving DecidableEq, Repr

/-- Files and directories, and the directory at which relative paths start. -/
structure FileTree where
  nodes : Ledger (List String) FileNode := .empty
  here : List String := []

namespace FileTree

/-- What stands at a place; the top is a directory. -/
def node? (t : FileTree) (place : List String) : Option FileNode :=
  if place = [] then some .directory else t.nodes.get? place

/-- Puts a node at a place. -/
def put (t : FileTree) (place : List String) (n : FileNode) : FileTree := { t with nodes := t.nodes.insert place n }

/-- Putting a node below the top changes what stands at its place only. -/
theorem node?_put (t : FileTree) {place : List String} (hp : place ≠ []) (n : FileNode) (place' : List String) :
    (t.put place n).node? place' = if place = place' then some n else t.node? place' := by
  by_cases h : place' = []
  · subst h; simp [node?, hp]
  · simp [node?, put, h, Ledger.get?_insert]

/-- Puts directories at all the places between two. -/
def putDirectories (t : FileTree) (start : List String) : List String → FileTree
  | []      => t
  | n :: ns => (t.put (start ++ [n]) .directory).putDirectories (start ++ [n]) ns

/-- The place that names lead to from a place.  All but the last must be names of directories. -/
def follow (t : FileTree) (place : List String) : List String → Except FileError (List String)
  | []         => .ok place
  | n :: names =>
    if n = "." then t.follow place names
    else if n = ".." then t.follow place.dropLast names
    else
      match t.node? (place ++ [n]) with
      | some .directory => t.follow (place ++ [n]) names
      | some (.file _)  => if names = [] then .ok (place ++ [n]) else .error .notDirectory
      | none            => if names = [] then .ok (place ++ [n]) else .error .notFound

/-- The place at which a path starts. -/
def startOf (t : FileTree) (path : String) : List String := if Path.isAbsolute path then [] else t.here

/-- The place a path leads to. -/
def locate (t : FileTree) (path : String) : Except FileError (List String) :=
  if path = "" then .error .notFound else t.follow (t.startOf path) (Path.names path)

/-- What stands where a path leads to.  Only a directory may be named with a slash at the end. -/
def lookup (t : FileTree) (path : String) : Except FileError FileNode := do
  match t.node? (← t.locate path) with
  | none           => throw .notFound
  | some .directory => return .directory
  | some (.file b)  => if Path.endsInSlash path then throw .notDirectory else return .file b

/-- The path leads to a file. -/
def isFile (t : FileTree) (path : String) : Bool :=
  match t.lookup path with
  | .ok (.file _) => true
  | _             => false

/-- The bytes of a file. -/
def read (t : FileTree) (path : String) : Except FileError (List UInt8) := do
  match ← t.lookup path with
  | .file bytes => return bytes
  | .directory  => throw .isDirectory

end FileTree

/-- A task on a tree; what it did before it failed stays done. -/
abbrev FileTask : Type → Type := EStateM FileError FileTree

namespace FileTree

/-- Writes a file in a directory that is there. -/
def write (path : String) (bytes : List UInt8) : FileTask Unit := do
  let t ← get
  let place ← MonadExcept.ofExcept (t.locate path)
  if Path.endsInSlash path then throw .isDirectory
  match t.node? place with
  | some .directory => throw .isDirectory
  | _               => set (t.put place (.file bytes))

/-- Makes the directories that are missing on the way along names from a place. -/
def makeDirectoriesFrom (place : List String) : List String → FileTask Unit
  | []         => pure ()
  | n :: names => do
    if n = "." then makeDirectoriesFrom place names
    else if n = ".." then makeDirectoriesFrom place.dropLast names
    else
      let t ← get
      match t.node? (place ++ [n]) with
      | some .directory => pure ()
      | some (.file _)  => throw (if names = [] then .alreadyThere else .notDirectory)
      | none            => set (t.put (place ++ [n]) .directory)
      makeDirectoriesFrom (place ++ [n]) names

/-- Makes the directories of a path that are missing. -/
def makeDirectories (path : String) : FileTask Unit := do
  makeDirectoriesFrom ((← get).startOf path) (Path.names path)

/-- Removes a file. -/
def remove (path : String) : FileTask Unit := do
  let t ← get
  let place ← MonadExcept.ofExcept (t.locate path)
  match t.node? place with
  | none            => throw .notFound
  | some .directory => throw .isDirectory
  | some (.file _)  => set { t with nodes := t.nodes.erase place }

/-- The tree of files below the working directory, given by path and bytes; a path without bytes is a directory. -/
def ofFiles (here : List String) (files : List (String × Option (List UInt8))) : FileTree :=
  files.foldl
    (fun t (path, bytes) =>
      let names := Path.movingNames path
      match bytes with
      | some bytes => (t.putDirectories here names.dropLast).put (here ++ names) (.file bytes)
      | none       => t.putDirectories here names)
    (({ here := here } : FileTree).putDirectories [] here)

end FileTree

end ThreatModel
