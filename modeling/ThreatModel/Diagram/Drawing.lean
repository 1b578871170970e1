import ThreatModel.Diagram.Basic
import ThreatModel.FileTree.Basic
import ThreatModel.Text.Utf8

/-!
# Drawings — diagrams in files

A diagram is drawn in a format such as `png`.  Its DOT text is put into a file first, the drawing into the file of that
name with the format behind it, and then the DOT text is taken away again.  A drawing names its format in its first line
and shows the DOT text below.

* `Diagram.draw`: writes a drawing and gives its path.
-/

namespace ThreatModel.Diagram

/-- The text of a drawing. -/
def drawing (format source : String) : String := format ++ "\n" ++ source

/-- The bytes of a text. -/
def bytesOf (text : String) : List UInt8 := Text.encode text.toList

/-- The path of the drawing of a DOT text in this file. -/
def drawingPath (output format : String) : String := Path.normal output ++ "." ++ format

/-- Puts the drawing of a DOT text behind a path. -/
def drawAt (output format dot : String) : FileTask String := do
  FileTree.makeDirectories (Path.before output)
  FileTree.write output (bytesOf dot)
  let path := drawingPath output format
  FileTree.write path (bytesOf (drawing format dot))
  FileTree.remove output
  return path

/-- Draws a diagram; path and format are those of the settings unless they are given.  A name with half of a character
cannot be written; the directories before it are made. -/
def draw (g : ComponentGraph) (s : DiagramSettings) (output format : Option String) : FileTask String := do
  let output := s.outputOr output
  match Text.narrow? output with
  | some output => drawAt output (s.formatOr format) (source g s)
  | none        =>
    FileTree.makeDirectories (Path.before (Text.wholePart output))
    throw .halfCharacter

end ThreatModel.Diagram
