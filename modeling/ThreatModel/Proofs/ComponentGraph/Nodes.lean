import ThreatModel.Proofs.Annotations.Directions
import ThreatModel.Proofs.Component.Findings
import ThreatModel.Proofs.ComponentGraph.Severities

/-!
# Nodes — every node is the end of an edge or a flow

A graph is offered nodes: boxes for the ends of the bundles, and then ovals for the ends of the
flows.  Of the nodes of one key it keeps the first (`Shows`), so an end of a bundle is a box,
spelled as in the component table, whatever flows it is an end of, and the other ends of flows are
ovals, spelled as in the first of their flows (`get?_nodes_assemble`, `kind_of_get?`).

* `build_wellFormed`: the graph that is built of any facts that were read, and any call graph.
-/

namespace ThreatModel

namespace ComponentGraph

/-- The keys of the components that edges join. -/
def edgeEnds (g : ComponentGraph) : List String := g.edges.flatMap fun e => [e.source, e.target]

/-- The keys of the components that flows join. -/
def flowEnds (g : ComponentGraph) : List String := g.flows.flatMap fun x => [x.source, x.target]

/-- The box of a component of the table, in the colour of what is counted for it. -/
def box? (table : ComponentTable) (mitigations exposures : Tally String) (key : String) :
    Option GraphNode :=
  (table.get? key).map fun c =>
    ⟨key, c.place.zone, c.place.component, callShape,
      (Severity.ofCounts? (Tally.count mitigations key) (Tally.count exposures key)).map
        Severity.color⟩

/-- The oval of a place. -/
def oval (p : Place) : GraphNode := ⟨p.key, p.zone, p.component, flowShape, none⟩

/-- The places of the ends of flows. -/
def endsOf (flows : List DataFlow) : List Place := flows.flatMap fun x => [x.source, x.target]

/-- A data flow as an edge of its own. -/
def flowEdge (x : DataFlow) : FlowEdge :=
  ⟨x.source.key, x.target.key, x.subject, x.direction, flowColor x.direction⟩

variable {g g' : ComponentGraph} {table : ComponentTable} {clamp : Bool}
  {mitigations exposures : Tally String} {ns : List GraphNode} {flows : List FlowEdge}

/-! ### Nodes that are offered -/

/-- The graph counts by the tallies, has the flows, and has the first node of each key. -/
structure Shows (mitigations exposures : Tally String) (flows : List FlowEdge)
    (ns : List GraphNode) (g : ComponentGraph) : Prop where
  mitigations_eq : g.mitigations = mitigations
  exposures_eq : g.exposures = exposures
  flows_eq : g.flows = flows
  nodes : ∀ key, g.nodes.get? key = ns.find? (·.key = key)

theorem flows_addNode (g : ComponentGraph) (n : GraphNode) : (g.addNode n).flows = g.flows := by
  rw [addNode]
  split <;> rfl

namespace Shows

theorem addNode (h : Shows mitigations exposures flows ns g) (n : GraphNode) :
    Shows mitigations exposures flows (ns ++ [n]) (g.addNode n) where
  mitigations_eq := (mitigations_addNode g n).trans h.mitigations_eq
  exposures_eq := (exposures_addNode g n).trans h.exposures_eq
  flows_eq := (flows_addNode g n).trans h.flows_eq
  nodes key := by
    rw [get?_addNode, h.nodes, List.find?_append, List.find?_singleton]
    simp only [decide_eq_true_eq]

theorem addComponent {key : String} (h : Shows mitigations exposures flows ns g)
    (hg : g.addComponent table key = .ok g') :
    Shows mitigations exposures flows (ns ++ (box? table mitigations exposures key).toList) g' := by
  rw [ComponentGraph.addComponent] at hg
  split at hg
  · cases hg
  · rename_i c hc
    cases hg
    rw [box?, hc, h.mitigations_eq, h.exposures_eq]
    exact h.addNode _

theorem addBundle {source : String} {bundle : String × List Call}
    (h : Shows mitigations exposures flows ns g)
    (hg : ComponentGraph.addBundle table clamp source g bundle = .ok g') :
    Shows mitigations exposures flows
      (ns ++ (box? table mitigations exposures bundle.1).toList) g' := by
  obtain ⟨target, calls⟩ := bundle
  obtain ⟨g₁, hg₁, hg⟩ := bind_eq_ok_iff.mp hg
  cases hg
  have h₁ := h.addComponent hg₁
  exact ⟨h₁.mitigations_eq, h₁.exposures_eq, h₁.flows_eq, h₁.nodes⟩

theorem addSource {source : String × Ledger String (List Call)}
    (h : Shows mitigations exposures flows ns g)
    (hg : ComponentGraph.addSource table clamp g source = .ok g') :
    Shows mitigations exposures flows
      (ns ++ (source.1 :: source.2.keys).filterMap (box? table mitigations exposures)) g' := by
  obtain ⟨key, bundles⟩ := source
  obtain ⟨g₁, hg₁, hg⟩ := bind_eq_ok_iff.mp hg
  have hbundles := append_foldlM_ok (Shows mitigations exposures flows)
    (fun _ _ _ _ hstep hshows => hshows.addBundle hstep) hg (h.addComponent hg₁)
  rw [List.append_assoc] at hbundles
  rw [List.filterMap_eq_flatMap_toList, List.flatMap_cons, Ledger.keys, List.flatMap_map]
  exact hbundles

theorem addFlow (h : Shows mitigations exposures flows ns g) (x : DataFlow) :
    Shows mitigations exposures (flows ++ [flowEdge x]) (ns ++ [oval x.source, oval x.target])
      (g.addFlow x) := by
  have hends := (h.addNode (oval x.source)).addNode (oval x.target)
  rw [List.append_assoc] at hends
  exact ⟨hends.mitigations_eq, hends.exposures_eq, congrArg (· ++ _) hends.flows_eq, hends.nodes⟩

theorem foldl_addFlow (h : Shows mitigations exposures flows ns g) (xs : List DataFlow) :
    Shows mitigations exposures (flows ++ xs.map flowEdge) (ns ++ (endsOf xs).map oval)
      (xs.foldl ComponentGraph.addFlow g) := by
  induction xs generalizing flows ns g with
  | nil => simpa [endsOf] using h
  | cons x xs ih =>
      have hxs := ih (h.addFlow x)
      rw [List.append_assoc, List.append_assoc] at hxs
      exact hxs

end Shows

/-! ### Assembling -/

/-- The ends of the bundles. -/
def linked (t : Bundles.Table) : List String :=
  t.toList.flatMap fun source => source.1 :: source.2.keys

/-- **Assembling offers boxes for the ends of the bundles, and then ovals for the ends of flows.** -/
theorem shows_assemble {b : Bundles} {xs : List DataFlow}
    (hg : assemble b table xs clamp = .ok g) :
    Shows b.mitigations b.exposures (xs.map flowEdge)
      ((linked b.calls).filterMap (box? table b.mitigations b.exposures) ++ (endsOf xs).map oval)
      g := by
  obtain ⟨g₁, hg₁, hg⟩ := bind_eq_ok_iff.mp hg
  cases hg
  have hempty : Shows b.mitigations b.exposures [] []
      { mitigations := b.mitigations, exposures := b.exposures } :=
    ⟨rfl, rfl, rfl, fun _ => rfl⟩
  have hboxes := append_foldlM_ok (Shows b.mitigations b.exposures [])
    (fun _ _ _ _ hstep hshows => hshows.addSource hstep) hg₁ hempty
  rw [linked, List.filterMap_flatMap]
  exact hboxes.foldl_addFlow xs

theorem find?_filterMap_box? (keys : List String) (key : String) :
    (keys.filterMap (box? table mitigations exposures)).find? (·.key = key) =
      if key ∈ keys then box? table mitigations exposures key else none := by
  induction keys with
  | nil => rfl
  | cons k keys ih =>
      rw [List.filterMap_cons]
      cases hbox : box? table mitigations exposures k with
      | none =>
          by_cases hk : key = k
          · subst hk
            simp [ih, hbox]
          · simp [ih, hk]
      | some n =>
          have hn : n.key = k := by
            obtain ⟨c, -, rfl⟩ := Option.map_eq_some_iff.mp hbox
            rfl
          by_cases hk : key = k
          · subst hk
            simp [hn, hbox]
          · simp [hn, ih, hk, Ne.symm hk]

/-- The node of an end of a bundle is its box, and that of another end of flows its first oval. -/
theorem get?_nodes_assemble {b : Bundles} {xs : List DataFlow}
    (hg : assemble b table xs clamp = .ok g) (key : String) :
    g.nodes.get? key =
      (if key ∈ linked b.calls then box? table b.mitigations b.exposures key else none).or
        (((endsOf xs).find? fun p => p.key = key).map oval) := by
  rw [(shows_assemble hg).nodes, List.find?_append, find?_filterMap_box?, List.find?_map]
  rfl

/-- The ends of the bundles are those of the edges, as no source is without a bundle. -/
theorem mem_linked_iff {t : Bundles.Table} {key : String}
    (h : ∀ source targets, t.get? source = some targets → ∃ target, target ∈ targets.keys) :
    key ∈ linked t ↔ key ∈ (edgesOf clamp t).flatMap fun e => [e.source, e.target] := by
  rw [linked, edgesOf, List.flatMap_assoc]
  simp only [List.mem_flatMap, List.flatMap_map, edgeOf, Ledger.keys, List.mem_cons, List.mem_map,
    List.not_mem_nil, or_false]
  constructor
  · rintro ⟨source, hs, rfl | ⟨bundle, hb, rfl⟩⟩
    · obtain ⟨target, ht⟩ := h _ _ (Ledger.mem_toList_iff.mp hs)
      obtain ⟨bundle, hb, -⟩ := List.mem_map.mp ht
      exact ⟨source, hs, bundle, hb, .inl rfl⟩
    · exact ⟨source, hs, bundle, hb, .inr rfl⟩
  · rintro ⟨source, hs, bundle, hb, rfl | rfl⟩
    · exact ⟨source, hs, .inl rfl⟩
    · exact ⟨source, hs, .inr ⟨bundle, hb, rfl⟩⟩

/-! ### The complete graph -/

/-- Nodes, edges and flows fit together, and the flows are those of the functions of the table. -/
structure WellFormed (f : Facts) (graph : ComponentGraph) : Prop where
  edge_ends : ∀ key ∈ graph.edgeEnds, key ∈ graph.nodes.keys
  flow_ends : ∀ key ∈ graph.flowEnds, key ∈ graph.nodes.keys
  node_ends : ∀ key ∈ graph.nodes.keys, key ∈ graph.edgeEnds ∨ key ∈ graph.flowEnds
  /-- A node stands under its own key, which is that of its place. -/
  key : ∀ key node, graph.nodes.get? key = some node →
    node.key = key ∧ Place.key ⟨node.zone, node.label⟩ = key
  box_iff : ∀ key node, graph.nodes.get? key = some node →
    (node.shape = "box" ↔ key ∈ graph.edgeEnds)
  /-- A box is spelled as in the component table. -/
  box_place : ∀ key node, graph.nodes.get? key = some node → node.shape = "box" →
    ((ComponentTable.analyze f).get? key).map Component.place = some ⟨node.zone, node.label⟩
  oval : ∀ key node, graph.nodes.get? key = some node → node.shape ≠ "box" →
    node.shape = "oval" ∧ node.color = none
  flows : graph.flows = f.functions.flatMap fun (_, r) => r.flows.map flowEdge
  direction : ∀ x ∈ graph.flows,
    x.direction = "sends" ∧ x.color = "blue" ∨ x.direction = "receives" ∧ x.color = "purple"

/-- What a node of a graph over a component table can be. -/
inductive Kind (table : ComponentTable) (graph : ComponentGraph) (key : String) :
    GraphNode → Prop where
  /-- An end of edges, and perhaps of flows. -/
  | box {c : Component} {color : Option String} (hend : key ∈ graph.edgeEnds)
      (hc : table.get? key = some c) :
      Kind table graph key ⟨key, c.place.zone, c.place.component, "box", color⟩
  /-- An end of flows only. -/
  | oval {p : Place} (hno : key ∉ graph.edgeEnds) (hend : key ∈ graph.flowEnds)
      (hp : p.key = key) : Kind table graph key (oval p)

theorem shape_oval_ne (p : Place) : (oval p).shape ≠ "box" :=
  show flowShape ≠ "box" by decide

theorem flowEdge_direction {x : DataFlow} (h : IsDirection x.direction) :
    (flowEdge x).direction = "sends" ∧ (flowEdge x).color = "blue" ∨
      (flowEdge x).direction = "receives" ∧ (flowEdge x).color = "purple" := by
  rcases h with hd | hd
  · exact .inl ⟨hd, by rw [flowEdge, flowColor, if_pos hd]⟩
  · exact .inr ⟨hd, by rw [flowEdge, flowColor, hd, if_neg (by decide)]⟩

section
variable {f : Facts} {calls : CallGraph} {graph : ComponentGraph} {key : String}
  (hg : assemble (Bundles.collect f calls) (ComponentTable.analyze f) (flowsOf f) clamp =
    .ok graph)
  (hedges : graph.edges = edgesOf clamp (Bundles.collect f calls).calls)

/-- No end of a bundle is missing from the component table. -/
theorem exists_get?_of_mem_linked (h : key ∈ linked (Bundles.collect f calls).calls) :
    ∃ c, (ComponentTable.analyze f).get? key = some c := by
  obtain ⟨source, hs, hkey⟩ := List.mem_flatMap.mp h
  obtain ⟨hsource, htargets⟩ := Bundles.mem_keys_of_get? (Ledger.mem_toList_iff.mp hs)
  rcases List.mem_cons.mp hkey with rfl | ht
  · exact Ledger.mem_keys_iff.mp hsource
  · exact Ledger.mem_keys_iff.mp (htargets key ht)

include hedges in
theorem mem_edgeEnds_iff :
    key ∈ graph.edgeEnds ↔ key ∈ linked (Bundles.collect f calls).calls := by
  rw [edgeEnds, hedges, ← mem_linked_iff]
  intro source targets h
  rw [Bundles.calls_collect] at h
  exact Bundles.exists_mem_keys_of_get? h

theorem mem_flowEnds_iff {xs : List DataFlow} (hflows : graph.flows = xs.map flowEdge) :
    key ∈ graph.flowEnds ↔ ∃ p ∈ endsOf xs, p.key = key := by
  have hends : graph.flowEnds = (endsOf xs).map Place.key := by
    rw [flowEnds, hflows, List.flatMap_map, endsOf, List.map_flatMap]
    rfl
  rw [hends, List.mem_map]

include hg hedges

/-- **A node is a box of the component table or an oval of a flow**, and a box if it is an end of
edges. -/
theorem kind_of_get? {node : GraphNode} (hnode : graph.nodes.get? key = some node) :
    Kind (ComponentTable.analyze f) graph key node := by
  rw [get?_nodes_assemble hg] at hnode
  by_cases hend : key ∈ linked (Bundles.collect f calls).calls
  · obtain ⟨c, hc⟩ := exists_get?_of_mem_linked hend
    rw [if_pos hend, box?, hc] at hnode
    cases hnode
    exact .box ((mem_edgeEnds_iff hedges).mpr hend) hc
  · rw [if_neg hend, Option.none_or, Option.map_eq_some_iff] at hnode
    obtain ⟨p, hp, rfl⟩ := hnode
    have hkey : p.key = key := by simpa using List.find?_some hp
    exact .oval (fun h => hend ((mem_edgeEnds_iff hedges).mp h))
      ((mem_flowEnds_iff (shows_assemble hg).flows_eq).mpr
        ⟨p, List.mem_of_find?_eq_some hp, hkey⟩) hkey

/-- Every end has a node. -/
theorem mem_nodes_of_mem_ends (h : key ∈ graph.edgeEnds ∨ key ∈ graph.flowEnds) :
    key ∈ graph.nodes.keys := by
  rw [Ledger.mem_keys_iff, ← Option.isSome_iff_exists, get?_nodes_assemble hg, Option.isSome_or,
    Option.isSome_map, Bool.or_eq_true]
  rcases h with hend | hend
  · have hlinked := (mem_edgeEnds_iff hedges).mp hend
    obtain ⟨c, hc⟩ := exists_get?_of_mem_linked hlinked
    rw [if_pos hlinked, box?, hc]
    exact .inl rfl
  · obtain ⟨p, hp, hkey⟩ := (mem_flowEnds_iff (shows_assemble hg).flows_eq).mp hend
    exact .inr (List.find?_isSome.mpr ⟨p, hp, decide_eq_true hkey⟩)

theorem wellFormed_of_assemble (hdirected : f.Directed) : WellFormed f graph where
  edge_ends key h := mem_nodes_of_mem_ends hg hedges (.inl h)
  flow_ends key h := mem_nodes_of_mem_ends hg hedges (.inr h)
  node_ends key h := by
    obtain ⟨node, hnode⟩ := Ledger.mem_keys_iff.mp h
    cases kind_of_get? hg hedges hnode with
    | box hend => exact .inl hend
    | oval _ hend => exact .inr hend
  key key node hnode := by
    cases kind_of_get? hg hedges hnode with
    | box _ hc => exact ⟨rfl, (Component.gathers_of_get? hc).key_place⟩
    | oval _ _ hp => exact ⟨hp, hp⟩
  box_iff key node hnode := by
    cases kind_of_get? hg hedges hnode with
    | box hend => exact ⟨fun _ => hend, fun _ => rfl⟩
    | oval hno => exact ⟨fun hbox => absurd hbox (shape_oval_ne _), fun hend => absurd hend hno⟩
  box_place key node hnode hbox := by
    cases kind_of_get? hg hedges hnode with
    | box _ hc =>
        rw [hc]
        rfl
    | oval => exact absurd hbox (shape_oval_ne _)
  oval key node hnode hbox := by
    cases kind_of_get? hg hedges hnode with
    | box => exact absurd rfl hbox
    | oval => exact ⟨rfl, rfl⟩
  flows := by rw [(shows_assemble hg).flows_eq, flowsOf, List.map_flatMap]
  direction x hx := by
    rw [(shows_assemble hg).flows_eq, List.mem_map] at hx
    obtain ⟨x, hx, rfl⟩ := hx
    obtain ⟨⟨key, r⟩, hr, hx⟩ := List.mem_flatMap.mp hx
    exact flowEdge_direction (hdirected.of_mem_functions hr x hx)

end

/-- **Every graph is well formed** that is built of facts that were read, over any call graph. -/
theorem build_wellFormed (ps : List Annotations.Parse) (calls : CallGraph) (clamp : Bool) :
    ∃ graph events,
      build (Annotations.parseAll .empty ps) calls clamp = .ok (graph, events) ∧
        WellFormed (Annotations.parseAll .empty ps) graph := by
  obtain ⟨graph, hbuild, hg, hedges⟩ := exists_build (Annotations.parseAll .empty ps) calls clamp
  exact ⟨graph, _, hbuild, wellFormed_of_assemble hg hedges
    (Annotations.directed_parseAll Facts.directed_empty ps)⟩

end ComponentGraph

end ThreatModel
