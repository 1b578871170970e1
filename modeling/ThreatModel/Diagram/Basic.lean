import ThreatModel.ComponentGraph
import ThreatModel.Diagram.Token
import ThreatModel.Number.Shortest
import ThreatModel.Settings.Basic
import ThreatModel.Text.Given

/-!
# The diagram — a component graph in DOT

A diagram draws a component graph with a cluster for every zone.  Zones that share a key share a cluster, which bears the
name of the first.  The edges of the graph follow, and then its flows, with labels in colours.

* `Diagram.clusters`: the zones and their nodes.
* `Diagram.htmlLabel`: the text of a label.
* `Diagram.source`: the DOT text.
-/

namespace ThreatModel.Diagram

/-- A zone and its nodes. -/
structure Cluster where
  zone : String
  nodes : List GraphNode

/-- The zones by key, in order of their first node. -/
def clusters (g : ComponentGraph) : Ledger String Cluster :=
  g.nodes.values.foldl
    (fun l n => l.alter (keyOf n.zone) fun c =>
      let c := c.getD ⟨n.zone, []⟩
      { c with nodes := c.nodes ++ [n] })
    .empty

/-- A piece of a label. -/
def htmlPart (p : LabelPart) : String :=
  "<font color=\"" ++ Dot.escapeHtml p.color ++ "\">" ++ Dot.escapeHtml p.text ++ "</font>"

/-- A label as an HTML-like text. -/
def htmlLabel (l : Label) : String :=
  "<" ++ String.intercalate "<br/>\n" (l.map fun line => String.intercalate " / " (line.map htmlPart)) ++ ">"

/-- One attribute. -/
def assign (name value : String) : String := name ++ "=" ++ Dot.token value

/-- The statement of a node. -/
def nodeLine (n : GraphNode) : String :=
  let color := (Text.given? n.color).map (assign "color")
  "\t\t" ++ Dot.token n.key ++ " [" ++
    String.intercalate " " ([assign "label" n.label] ++ color.toList ++ [assign "shape" n.shape]) ++ "]\n"

/-- The statements of a cluster. -/
def clusterLines (key : String) (c : Cluster) : List String :=
  ["\tsubgraph " ++ Dot.token ("cluster_" ++ key) ++ " \x7b\n",
    "\t\t" ++ assign "label" c.zone ++ " style=dashed\n"] ++
    c.nodes.map nodeLine ++ ["\t\x7d\n"]

/-- The statement of an edge. -/
def edgeLine (source target : String) (label : Label) (color : String) : String :=
  "\t" ++ Dot.endpoint source ++ " -> " ++ Dot.endpoint target ++
    " [" ++ assign "label" (htmlLabel label) ++ " " ++ assign "color" color ++ "]\n"

/-- The statements before the clusters. -/
def headLines (s : DiagramSettings) : List String :=
  ["// ThreatSpec component threat graph\n",
    "digraph G \x7b\n",
    "\tcompound=true layout=dot " ++ assign "nodesep" s.nodeSeparation.text ++ " overlap=false " ++
      assign "rankdir" s.rankDirection ++ "\n",
    "\tedge [lhead=\"\" ltail=\"\"]\n"]

/-- The lines of a diagram. -/
def lines (g : ComponentGraph) (s : DiagramSettings) : List String :=
  headLines s ++
    (clusters g).toList.flatMap (fun (key, c) => clusterLines key c) ++
    g.edges.map (fun e => edgeLine e.source e.target e.label e.color) ++
    g.flows.map (fun f => edgeLine f.source f.target [[⟨f.subject, f.color⟩]] f.color) ++
    ["\x7d\n"]

/-- The DOT text of a component graph. -/
def source (g : ComponentGraph) (s : DiagramSettings) : String := String.join (lines g s)

end ThreatModel.Diagram
