import ThreatModel.CommandLine.Session
import ThreatModel.FileTree.Change
import ThreatModel.Yaml.Loader

/-!
# The program

Reads the files that the command line names, runs the session, prints what it printed and makes the changes it made.
-/

namespace ThreatModel.Program

/-- Adds what stands where names lead to from a directory, and the directories on the way. -/
def addFrom (t : FileTree) (place : List String) : List String → IO FileTree
  | []         => return t
  | n :: names => do
    if n = "." then addFrom t place names
    else if n = ".." then addFrom t place.dropLast names
    else
      let place := place ++ [n]
      try
        let bytes ← IO.FS.readBinFile (FileTree.pathTo place)
        return t.put place (.file bytes.toList)
      catch e =>
        match e with
        | .inappropriateType .. => addFrom (t.put place .directory) place names
        | _                     => return t

/-- The part of the file system that paths lead to. -/
def readTree (here : List String) (paths : List String) : IO FileTree :=
  paths.foldlM (fun t path => addFrom t (t.startOf path) (Path.names path))
    (({ here := here } : FileTree).putDirectories [] here)

/-- Makes one change. -/
def make : FileChange → IO Unit
  | .removeFile place      => IO.FS.removeFile (FileTree.pathTo place)
  | .makeDirectory place   => IO.FS.createDir (FileTree.pathTo place)
  | .writeFile place bytes => IO.FS.writeBinFile (FileTree.pathTo place) (ByteArray.mk bytes.toArray)

/-- The standard input, which is read only if it is needed and no terminal. -/
def readInput (needed : Bool) : IO CallGraph.Source := do
  let input ← IO.getStdin
  if !needed || (← input.isTty) then return .terminal
  return .bytes (← input.readBinToEnd).toList

end ThreatModel.Program

open ThreatModel in
def main (words : List String) : IO UInt32 := do
  let here := Path.names (← IO.currentDir).toString
  let before ← Program.readTree here (CommandLine.Request.paths words)
  let input ← Program.readInput (CommandLine.Request.draws before words)
  let outcome := CommandLine.run .yaml words before input
  IO.print outcome.out
  IO.eprint outcome.err
  match outcome.failure with
  | some f => IO.eprintln f.message
  | none   => pure ()
  (before.changes outcome.files).forM Program.make
  return outcome.exitCode.toUInt32
