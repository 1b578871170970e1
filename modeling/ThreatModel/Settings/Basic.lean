import ThreatModel.Number.Binary64
import ThreatModel.Text.Given
import ThreatModel.Text.Wide

/-!
# Settings — what a configuration can choose

The settings have a title and three sections: how sources are read, how the component graph is derived, and how the diagram
is drawn.  Every setting has a value of its own accord.  Title and output are free texts, which may hold halves of
characters.
-/

namespace ThreatModel

/-- How sources are read. -/
structure ReaderSettings where
  /-- Definitions and declared calls after the end of a block go to its function. -/
  rebindAfterBlock : Bool := true
deriving DecidableEq, Repr

/-- How the component graph is derived. -/
structure GraphSettings where
  /-- The number of other calls in a summed up label is never negative. -/
  clampOtherCount : Bool := false
deriving DecidableEq, Repr

/-- How the diagram is drawn. -/
structure DiagramSettings where
  output : Text.Wide := Text.wide "threatspec"
  format : String := "png"
  rankDirection : String := "LR"
  nodeSeparation : Binary64 := .ofRatio false 6 10
deriving DecidableEq, Repr

namespace DiagramSettings

/-- The formats of a drawn diagram. -/
def formats : List String := ["png", "svg", "pdf", "dot"]

/-- The directions in which a diagram can run. -/
def directions : List String := ["LR", "RL", "TB", "BT"]

/-- The given format, or else that of the settings. -/
def formatOr (s : DiagramSettings) (given : Option String) : String := Text.givenOr given s.format

/-- The given output path, or else that of the settings. -/
def outputOr (s : DiagramSettings) (given : Option String) : Text.Wide :=
  ((Text.given? given).map Text.wide).getD s.output

end DiagramSettings

/-- All settings. -/
structure Settings where
  title : Option Text.Wide := none
  reader : ReaderSettings := {}
  graph : GraphSettings := {}
  diagram : DiagramSettings := {}
deriving DecidableEq, Repr

end ThreatModel
