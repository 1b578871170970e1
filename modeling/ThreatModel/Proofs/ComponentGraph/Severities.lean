import ThreatModel.Proofs.ComponentGraph.Edges

/-!
# Severities — the colours of the complete graph

* `build_severities`: the graph of any facts and any call graph is built; it counts, for each
  component, the mitigations and exposures of every caller and of each of its effective callees,
  and each component with calls is a box in the colour of these totals.

A component is coloured when the first edge brings it in, but from counts that no longer change:
all counting is done while the bundles are collected (`IsCounter.collect`), and assembling only
reads it (`boxed_assemble`).  The flows come last and leave the boxes alone (`Extends`).
-/

namespace ThreatModel

/-- What is counted over the callers of the call graph that have records: each caller, and each of
its effective callees that has a record. -/
def callTotal (f : Facts) (g : CallGraph) (count : FunctionRecord → Nat) : Nat :=
  (f.functions.map fun (caller, r) =>
    match g.get? caller with
    | none          => 0
    | some observed =>
      count r + ((effectiveCallees r observed.keys).map fun key =>
        ((f.function? key).map count).getD 0).sum).sum

/-! ### Counting -/

namespace Bundles

/-- A count that only counting a function's facts changes. -/
structure IsCounter (measure : Bundles → Nat) (count : FunctionRecord → Nat) : Prop where
  countFacts : ∀ b r, measure (b.countFacts r) = measure b + count r
  addCall : ∀ b source target c, measure (b.addCall source target c) = measure b
  report : ∀ (b : Bundles) events, measure { b with events := events } = measure b

namespace IsCounter

variable {measure : Bundles → Nat} {count : FunctionRecord → Nat} {f : Facts} {g : CallGraph}

theorem addCallee (h : IsCounter measure count) (caller : String) (sources : List String)
    (b : Bundles) (key : String) : measure (Bundles.addCallee f caller sources b key) =
      measure b + ((f.function? key).map count).getD 0 := by
  rw [Bundles.addCallee]
  cases f.function? key with
  | none => rfl
  | some r =>
      -- whatever calls are added, they add nothing to the count
      have hcalls := eq_foldl measure (fun b source => eq_foldl measure
        (fun b target => h.addCall b source target (callInto key r)) r.componentKeys b) sources
      have hfacts := h.countFacts { b with events := b.events ++ [.calleeFound key caller] } r
      rw [h.report b] at hfacts
      exact (hcalls _).trans hfacts

theorem addCaller (h : IsCounter measure count) (b : Bundles) (caller : String)
    (r : FunctionRecord) : measure (b.addCaller f g caller r) =
      measure b + match g.get? caller with
        | none          => 0
        | some observed =>
          count r + ((effectiveCallees r observed.keys).map fun key =>
            ((f.function? key).map count).getD 0).sum := by
  rw [Bundles.addCaller]
  cases g.get? caller with
  | none => exact h.report b _
  | some observed =>
      have hsum := measure_foldl measure (h.addCallee (f := f) caller r.componentKeys)
        (effectiveCallees r observed.keys)
      rw [hsum, h.countFacts, h.report, h.report, Nat.add_assoc]

/-- **A count comes to its total over the callers and their effective callees.** -/
theorem collect (h : IsCounter measure count) (f : Facts) (g : CallGraph) :
    measure (Bundles.collect f g) = measure {} + callTotal f g count :=
  measure_foldl measure (fun b e => h.addCaller b e.1 e.2) f.functions {}

end IsCounter

variable {f : Facts} {g : CallGraph} {component : String}

theorem count_mitigations_collect : Tally.count (collect f g).mitigations component =
    callTotal f g fun r => r.mitigations.countP (·.place.key = component) := by
  have h : IsCounter (fun b => Tally.count b.mitigations component)
      fun r => r.mitigations.countP (·.place.key = component) :=
    ⟨fun _ _ => Tally.count_foldl_bump .., fun _ _ _ _ => rfl, fun _ _ => rfl⟩
  exact (h.collect f g).trans (Nat.zero_add _)

theorem count_exposures_collect : Tally.count (collect f g).exposures component =
    callTotal f g fun r => r.exposures.countP (·.place.key = component) := by
  have h : IsCounter (fun b => Tally.count b.exposures component)
      fun r => r.exposures.countP (·.place.key = component) :=
    ⟨fun _ _ => Tally.count_foldl_bump .., fun _ _ _ _ => rfl, fun _ _ => rfl⟩
  exact (h.collect f g).trans (Nat.zero_add _)

end Bundles

namespace ComponentGraph

/-- The colour of a component with so many mitigations and exposures. -/
def colorOf? : (mitigations exposures : Nat) → Option String
  | 0,     0     => none
  | _ + 1, 0     => some "darkgreen"
  | 0,     _ + 1 => some "red"
  | _ + 1, _ + 1 => some "orange"

theorem color_ofCounts? (mitigations exposures : Nat) :
    (Severity.ofCounts? mitigations exposures).map Severity.color =
      colorOf? mitigations exposures := by
  cases mitigations <;> cases exposures <;> simp [Severity.ofCounts?, colorOf?, Severity.color]

/-! ### Boxes -/

variable {g g' : ComponentGraph} {table : ComponentTable} {clamp : Bool}

theorem mitigations_addNode (g : ComponentGraph) (n : GraphNode) :
    (g.addNode n).mitigations = g.mitigations := by
  rw [addNode]
  split <;> rfl

theorem exposures_addNode (g : ComponentGraph) (n : GraphNode) :
    (g.addNode n).exposures = g.exposures := by
  rw [addNode]
  split <;> rfl

theorem get?_addNode (g : ComponentGraph) (n : GraphNode) (key : String) :
    (g.addNode n).nodes.get? key =
      (g.nodes.get? key).or (if n.key = key then some n else none) := by
  rw [addNode, Ledger.contains]
  by_cases hkey : n.key = key
  · subst hkey
    cases hnode : g.nodes.get? n.key <;> simp [hnode, Ledger.get?_insert]
  · cases hnode : g.nodes.get? n.key <;>
      cases hother : g.nodes.get? key <;> simp [hother, Ledger.get?_insert, hkey]

/-- Every node is a box in the colour of what the tallies count for it, and every edge runs from a
node to a node. -/
structure Boxed (mitigations exposures : Tally String) (g : ComponentGraph) : Prop where
  mitigations_eq : g.mitigations = mitigations
  exposures_eq : g.exposures = exposures
  box : ∀ key node, g.nodes.get? key = some node → node.shape = callShape ∧
    node.color = colorOf? (Tally.count mitigations key) (Tally.count exposures key)
  ends : ∀ e ∈ g.edges, (g.nodes.get? e.source).isSome ∧ (g.nodes.get? e.target).isSome

variable {mitigations exposures : Tally String}

theorem boxed_addComponent {key : String} (h : Boxed mitigations exposures g)
    (hg : g.addComponent table key = .ok g') :
    Boxed mitigations exposures g' ∧ (g'.nodes.get? key).isSome ∧
      ∀ k, (g.nodes.get? k).isSome → (g'.nodes.get? k).isSome := by
  rw [addComponent] at hg
  split at hg
  · cases hg
  · rename_i c hc
    cases hg
    have hkeep : ∀ k n, (g.nodes.get? k).isSome → ((g.addNode n).nodes.get? k).isSome := by
      intro k n hk
      rw [get?_addNode, Option.isSome_or, hk, Bool.true_or]
    refine ⟨⟨?_, ?_, fun k node hnode => ?_, fun e he => ?_⟩, ?_, fun k => hkeep k _⟩
    · exact (mitigations_addNode ..).trans h.mitigations_eq
    · exact (exposures_addNode ..).trans h.exposures_eq
    · rw [get?_addNode, Option.or_eq_some_iff] at hnode
      rcases hnode with hold | ⟨-, hnew⟩
      · exact h.box k node hold
      · split at hnew
        · rename_i hk
          obtain rfl : key = k := hk
          cases hnew
          refine ⟨rfl, ?_⟩
          rw [h.mitigations_eq, h.exposures_eq, color_ofCounts?]
        · cases hnew
    · rw [edges_addNode] at he
      exact ⟨hkeep _ _ (h.ends e he).1, hkeep _ _ (h.ends e he).2⟩
    · simp [get?_addNode]

theorem boxed_addBundle {source : String} {bundle : String × List Call}
    (hg : addBundle table clamp source g bundle = .ok g')
    (h : Boxed mitigations exposures g ∧ (g.nodes.get? source).isSome) :
    Boxed mitigations exposures g' ∧ (g'.nodes.get? source).isSome := by
  obtain ⟨target, calls⟩ := bundle
  obtain ⟨g₁, hg₁, hg⟩ := bind_eq_ok_iff.mp hg
  cases hg
  obtain ⟨h₁, htarget, hkeep⟩ := boxed_addComponent h.1 hg₁
  have hsource := hkeep source h.2
  refine ⟨⟨h₁.mitigations_eq, h₁.exposures_eq, h₁.box, fun e he => ?_⟩, hsource⟩
  rcases List.mem_append.mp he with hold | hnew
  · exact h₁.ends e hold
  · obtain rfl := List.mem_singleton.mp hnew
    exact ⟨hsource, htarget⟩

theorem boxed_addSource {source : String × Ledger String (List Call)}
    (hg : addSource table clamp g source = .ok g') (h : Boxed mitigations exposures g) :
    Boxed mitigations exposures g' := by
  obtain ⟨key, bundles⟩ := source
  obtain ⟨g₁, hg₁, hg⟩ := bind_eq_ok_iff.mp hg
  obtain ⟨h₁, hkey, -⟩ := boxed_addComponent h hg₁
  exact (foldlM_ok (fun g => Boxed mitigations exposures g ∧ (g.nodes.get? key).isSome)
    (fun _ _ _ hstep => boxed_addBundle hstep) hg ⟨h₁, hkey⟩).1

/-! ### Flows -/

/-- The graph has taken in flows: what is new are ovals and flows. -/
structure Extends (g g' : ComponentGraph) : Prop where
  mitigations : g'.mitigations = g.mitigations
  exposures : g'.exposures = g.exposures
  edges : g'.edges = g.edges
  keeps : ∀ key node, g.nodes.get? key = some node → g'.nodes.get? key = some node
  ovals : ∀ key node, g'.nodes.get? key = some node →
    g.nodes.get? key = some node ∨ node.shape = flowShape

namespace Extends

theorem refl (g : ComponentGraph) : Extends g g :=
  ⟨rfl, rfl, rfl, fun _ _ => id, fun _ _ => .inl⟩

theorem trans {g'' : ComponentGraph} (h : Extends g g') (h' : Extends g' g'') : Extends g g'' where
  mitigations := h'.mitigations.trans h.mitigations
  exposures := h'.exposures.trans h.exposures
  edges := h'.edges.trans h.edges
  keeps key node hnode := h'.keeps key node (h.keeps key node hnode)
  ovals key node hnode := (h'.ovals key node hnode).elim (h.ovals key node) .inr

theorem addNode {n : GraphNode} (hn : n.shape = flowShape) : Extends g (g.addNode n) := by
  refine ⟨mitigations_addNode g n, exposures_addNode g n, edges_addNode g n,
    fun key node hnode => ?_, fun key node hnode => ?_⟩
  · rw [get?_addNode, hnode, Option.some_or]
  · rw [get?_addNode, Option.or_eq_some_iff] at hnode
    rcases hnode with hold | ⟨-, hnew⟩
    · exact .inl hold
    · split at hnew
      · cases hnew
        exact .inr hn
      · cases hnew

theorem addFlow (flow : DataFlow) : Extends g (g.addFlow flow) := by
  have hends := (addNode (g := g) (n := ⟨flow.source.key, flow.source.zone, flow.source.component,
    flowShape, none⟩) rfl).trans (addNode (n := ⟨flow.target.key, flow.target.zone,
      flow.target.component, flowShape, none⟩) rfl)
  exact ⟨hends.mitigations, hends.exposures, hends.edges, hends.keeps, hends.ovals⟩

theorem foldl_addFlow (flows : List DataFlow) (g : ComponentGraph) :
    Extends g (flows.foldl ComponentGraph.addFlow g) := by
  induction flows generalizing g with
  | nil => exact refl g
  | cons flow flows ih => exact (addFlow flow).trans (ih _)

end Extends

/-! ### The complete graph -/

/-- **Assembling boxes the components of the bundles, in the colour of the collected counts.** -/
theorem boxed_assemble {b : Bundles} {flows : List DataFlow}
    (hg : assemble b table flows clamp = .ok g') :
    ∃ g, Boxed b.mitigations b.exposures g ∧ Extends g g' := by
  rw [assemble, bind_eq_ok_iff] at hg
  obtain ⟨g₁, hg₁, hg⟩ := hg
  cases hg
  have hempty : Boxed b.mitigations b.exposures
      { mitigations := b.mitigations, exposures := b.exposures } := by
    refine ⟨rfl, rfl, ?_, ?_⟩
    · rintro key node ⟨⟩
    · rintro e ⟨⟩
  have hboxed := foldlM_ok (Boxed b.mitigations b.exposures)
    (fun _ _ _ hstep => boxed_addSource hstep) hg₁ hempty
  exact ⟨g₁, hboxed, Extends.foldl_addFlow flows g₁⟩

/-- The counts and the colours of a graph are those of all its calls. -/
structure HasSeverities (f : Facts) (g : CallGraph) (graph : ComponentGraph) : Prop where
  mitigations : ∀ component, Tally.count graph.mitigations component =
    callTotal f g fun r => r.mitigations.countP (·.place.key = component)
  exposures : ∀ component, Tally.count graph.exposures component =
    callTotal f g fun r => r.exposures.countP (·.place.key = component)
  /-- Every box has the colour of its totals. -/
  color : ∀ component node, graph.nodes.get? component = some node → node.shape = "box" →
    node.color = colorOf? (Tally.count graph.mitigations component)
      (Tally.count graph.exposures component)
  /-- The ends of every edge are boxes. -/
  ends : ∀ e ∈ graph.edges, ∀ component ∈ [e.source, e.target],
    ∃ node, graph.nodes.get? component = some node ∧ node.shape = "box"

/-- The severities of a graph that is built over any component table. -/
theorem hasSeverities_of_buildWith {f : Facts} {g : CallGraph} {graph : ComponentGraph}
    {events : List Event} (h : buildWith f g table clamp = .ok (graph, events)) :
    HasSeverities f g graph := by
  obtain ⟨graph, hgraph, h⟩ := bind_eq_ok_iff.mp h
  cases h
  obtain ⟨g₁, hboxed, hext⟩ := boxed_assemble hgraph
  have hm := hext.mitigations.trans hboxed.mitigations_eq
  have he := hext.exposures.trans hboxed.exposures_eq
  refine ⟨fun component => ?_, fun component => ?_, fun component node hnode hbox => ?_,
    fun e hedge component hcomponent => ?_⟩
  · rw [hm]
    exact Bundles.count_mitigations_collect
  · rw [he]
    exact Bundles.count_exposures_collect
  · -- the flows bring in ovals only, so a box was there before them
    rcases hext.ovals component node hnode with hold | hoval
    · rw [hm, he]
      exact (hboxed.box component node hold).2
    · rw [hoval] at hbox
      exact absurd hbox (by decide)
  · rw [hext.edges] at hedge
    have hsome : (g₁.nodes.get? component).isSome := by
      rcases List.mem_pair.mp hcomponent with rfl | rfl
      · exact (hboxed.ends e hedge).1
      · exact (hboxed.ends e hedge).2
    obtain ⟨node, hnode⟩ := Option.isSome_iff_exists.mp hsome
    exact ⟨node, hext.keeps _ _ hnode, (hboxed.box _ _ hnode).1⟩

/-- **Counts and colours are those of the complete graph.**  The graph of any facts and any call
graph is built; it counts the mitigations and exposures of every caller and of its effective
callees, and it colours every box by the totals of its component. -/
theorem build_severities (f : Facts) (g : CallGraph) (clamp : Bool) :
    ∃ graph events, build f g clamp = .ok (graph, events) ∧ HasSeverities f g graph := by
  obtain ⟨graph, hgraph, -⟩ := edges_assemble (b := Bundles.collect f g)
    (fun _ _ h => Bundles.mem_keys_of_get? h) (flowsOf f) clamp
  have hbuild : build f g clamp = .ok (graph, (Bundles.collect f g).events) := by
    rw [build, buildWith, hgraph]
    rfl
  exact ⟨graph, _, hbuild, hasSeverities_of_buildWith hbuild⟩

end ComponentGraph

end ThreatModel
