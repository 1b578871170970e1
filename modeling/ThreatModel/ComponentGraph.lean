import ThreatModel.CallGraph
import ThreatModel.Component
import ThreatModel.Severity

/-!
# The component graph — which component calls which

The calls of a call graph, and those that annotations declare, become edges between the components of their functions.  Only
functions that are callers in the call graph are looked at; each of their callees is looked at once.  Nodes are coloured
by the mitigations and exposures counted on the way, edges by the worst of their calls.  Data flows are added as edges of
their own.

* `effectiveCallees`: the callees of a function, declared and observed.
* `Bundles.collect`: the calls between each pair of components.
* `ComponentGraph.build`: the whole graph; it fails if a component is missing from the table it is given.
-/

namespace ThreatModel

/-- A component in the graph. -/
structure GraphNode where
  key : String
  zone : String
  label : String
  shape : String
  color : Option String := none
deriving DecidableEq, Repr

/-- The bundled calls from one component into another. -/
structure ThreatEdge where
  source : String
  target : String
  calls : List Call
  color : String
  label : Label
deriving DecidableEq, Repr

/-- A flow of data from one component to another. -/
structure FlowEdge where
  source : String
  target : String
  subject : String
  direction : String
  color : String
deriving DecidableEq, Repr

/-- Nodes by key, edges, flows, and what was counted per component. -/
structure ComponentGraph where
  nodes : Ledger String GraphNode := .empty
  edges : List ThreatEdge := []
  flows : List FlowEdge := []
  mitigations : Tally String := .empty
  exposures : Tally String := .empty

/-- The keys of the components that a function's mitigations, exposures and capabilities are about, each once. -/
def FunctionRecord.componentKeys (r : FunctionRecord) : List String :=
  distinct (r.mitigations.map (·.place.key) ++ r.exposures.map (·.place.key) ++ r.capabilities.map (·.place.key))

/-- The callees of a function, declared ones first, each once. -/
def effectiveCallees (r : FunctionRecord) (observed : List String) : List String :=
  distinct (r.calls.map DeclaredCall.callee ++ observed)

/-- The calls between components, by source and then by target, and the counts and reports made on the way. -/
structure Bundles where
  calls : Ledger String (Ledger String (List Call)) := .empty
  mitigations : Tally String := .empty
  exposures : Tally String := .empty
  events : List Event := []

namespace Bundles

/-- Counts the mitigations and exposures of a function. -/
def countFacts (b : Bundles) (r : FunctionRecord) : Bundles :=
  { b with
    mitigations := r.mitigations.foldl (fun t m => Tally.bump t m.place.key) b.mitigations
    exposures := r.exposures.foldl (fun t e => Tally.bump t e.place.key) b.exposures }

/-- Adds a call from one component into another. -/
def addCall (b : Bundles) (source target : String) (c : Call) : Bundles :=
  { b with
    calls := b.calls.alter source fun targets => (targets.getD .empty).alter target fun cs => cs.getD [] ++ [c] }

/-- The call into a function stored under `key`. -/
def callInto (key : String) (r : FunctionRecord) : Call :=
  ⟨r.calleeLabel key, r.mitigations.length, r.exposures.length⟩

/-- Adds the calls of a caller, with the components `sources`, into one callee. -/
def addCallee (f : Facts) (caller : String) (sources : List String) (b : Bundles) (callee : String) : Bundles :=
  match f.function? callee with
  | none   => b
  | some r =>
    let b := { b with events := b.events ++ [Event.calleeFound callee caller] }
    let b := b.countFacts r
    let call := callInto callee r
    sources.foldl (fun b source => r.componentKeys.foldl (fun b target => b.addCall source target call) b) b

/-- Adds the calls of one function of the table. -/
def addCaller (f : Facts) (g : CallGraph) (b : Bundles) (caller : String) (r : FunctionRecord) : Bundles :=
  let b := { b with events := b.events ++ [Event.lookingForCaller caller] }
  match g.get? caller with
  | none         => b
  | some callees =>
    let b := { b with events := b.events ++ [Event.callerFound caller] }
    let b := b.countFacts r
    (effectiveCallees r callees.keys).foldl (addCallee f caller r.componentKeys) b

/-- The calls between the components of a set of facts. -/
def collect (f : Facts) (g : CallGraph) : Bundles :=
  f.functions.foldl (fun b (caller, r) => b.addCaller f g caller r) {}

end Bundles

namespace ComponentGraph

/-- The shape of a component with calls. -/
def callShape : String := "box"

/-- The shape of a component that is only the end of data flows. -/
def flowShape : String := "oval"

/-- The colour of a flow in this direction. -/
def flowColor (direction : String) : String := if direction = "sends" then "blue" else "purple"

/-- Adds a node unless its key is taken. -/
def addNode (g : ComponentGraph) (n : GraphNode) : ComponentGraph :=
  if g.nodes.contains n.key then g else { g with nodes := g.nodes.insert n.key n }

/-- Adds the node of a component of the table, in the colour of what was counted for it. -/
def addComponent (g : ComponentGraph) (table : ComponentTable) (key : String) : Except MissingKey ComponentGraph :=
  match table.get? key with
  | none   => .error ⟨key⟩
  | some c =>
    let severity := Severity.ofCounts? (Tally.count g.mitigations key) (Tally.count g.exposures key)
    .ok (g.addNode ⟨key, c.place.zone, c.place.component, callShape, severity.map Severity.color⟩)

/-- Adds the edge of a bundle and the node it goes to. -/
def addBundle (table : ComponentTable) (clamp : Bool) (source : String) (g : ComponentGraph)
    (bundle : String × List Call) : Except MissingKey ComponentGraph := do
  let (target, calls) := bundle
  let g ← g.addComponent table target
  return { g with
    edges := g.edges ++ [⟨source, target, calls, (bundleSeverity calls).color, bundleLabel calls clamp⟩] }

/-- Adds the node of a source and its bundles. -/
def addSource (table : ComponentTable) (clamp : Bool) (g : ComponentGraph)
    (source : String × Ledger String (List Call)) : Except MissingKey ComponentGraph := do
  let (key, bundles) := source
  let g ← g.addComponent table key
  bundles.toList.foldlM (addBundle table clamp key) g

/-- Adds a flow and the nodes of its two ends. -/
def addFlow (g : ComponentGraph) (f : DataFlow) : ComponentGraph :=
  let g := g.addNode ⟨f.source.key, f.source.zone, f.source.component, flowShape, none⟩
  let g := g.addNode ⟨f.target.key, f.target.zone, f.target.component, flowShape, none⟩
  { g with flows := g.flows ++ [⟨f.source.key, f.target.key, f.subject, f.direction, flowColor f.direction⟩] }

/-- The graph of bundled calls and of the flows of a set of facts. -/
def assemble (b : Bundles) (table : ComponentTable) (flows : List DataFlow) (clamp : Bool) :
    Except MissingKey ComponentGraph := do
  let g ← b.calls.toList.foldlM (addSource table clamp) { mitigations := b.mitigations, exposures := b.exposures }
  return flows.foldl addFlow g

/-- All data flows of the functions of the table. -/
def flowsOf (f : Facts) : List DataFlow := f.functions.flatMap fun (_, r) => r.flows

/-- The component graph over a component table, and what was reported. -/
def buildWith (f : Facts) (g : CallGraph) (table : ComponentTable) (clamp : Bool) :
    Except MissingKey (ComponentGraph × List Event) := do
  let b := Bundles.collect f g
  let graph ← assemble b table (flowsOf f) clamp
  return (graph, b.events)

/-- The component graph of a set of facts. -/
def build (f : Facts) (g : CallGraph) (clamp : Bool) : Except MissingKey (ComponentGraph × List Event) :=
  buildWith f g (ComponentTable.analyze f) clamp

end ComponentGraph

end ThreatModel
