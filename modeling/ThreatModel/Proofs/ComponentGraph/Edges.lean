import ThreatModel.Proofs.ComponentGraph.Bundles

/-!
# Edges — the component graph is the image of the effective calls

* `build_edges`: the graph of any facts and any call graph is built; it has one edge for each pair
  of components that an effective call joins, with one call for each such effective call, in the
  colour of the worst of them.

The graph is assembled bundle by bundle (`edges_assemble`), and no component is missing from the
table, since a bundle's components are those of functions of the table (`mem_keys_of_get?`).
-/

namespace ThreatModel

/-! ### The worst call -/

section
variable {calls : List Call} {c : Call}

theorem rank_le_bundleSeverity (h : c ∈ calls) :
    c.severity.rank ≤ (bundleSeverity calls).rank := by
  have hany : ∀ s, c.severity = s → calls.any (fun c => c.severity = s) = true := fun s hs =>
    List.any_eq_true.mpr ⟨c, h, by simpa using hs⟩
  cases hs : c.severity with
  | exposed => simp [bundleSeverity, List.find?, hany _ hs]
  | partly =>
      simp only [bundleSeverity, List.find?, hany _ hs]
      split <;> decide
  | mitigated =>
      simp only [bundleSeverity, List.find?, hany _ hs]
      split
      · decide
      · split <;> decide
  | neutral => exact Nat.zero_le _

theorem exists_severity_eq_bundleSeverity (h : calls ≠ []) :
    ∃ c ∈ calls, c.severity = bundleSeverity calls := by
  rw [bundleSeverity]
  cases hfind : [Severity.exposed, .partly, .mitigated].find? fun s =>
      calls.any fun c => c.severity = s with
  | some s =>
      have hany : (calls.any fun c => c.severity = s) = true :=
        List.find?_some (p := fun s => calls.any fun c => c.severity = s) hfind
      obtain ⟨c, hc, hs⟩ := List.any_eq_true.mp hany
      exact ⟨c, hc, of_decide_eq_true hs⟩
  | none =>
      obtain ⟨c, hc⟩ := List.exists_mem_of_ne_nil _ h
      refine ⟨c, hc, ?_⟩
      -- what is not found is none of the three, and so neutral
      have hnot : ∀ s ∈ [Severity.exposed, .partly, .mitigated], c.severity ≠ s := by
        intro s hs heq
        refine List.find?_eq_none.mp hfind s hs (List.any_eq_true.mpr ⟨c, hc, ?_⟩)
        exact decide_eq_true heq
      cases hs : c.severity with
      | neutral => rfl
      | _ => exact absurd hs (hnot _ (by simp))

/-- Which calls are in a bundle is all that matters. -/
theorem bundleSeverity_congr {calls' : List Call} (h : ∀ c, c ∈ calls ↔ c ∈ calls') :
    bundleSeverity calls = bundleSeverity calls' := by
  have hany : ∀ p : Call → Bool, calls.any p = calls'.any p := fun p =>
    Bool.eq_iff_iff.mpr (by simp only [List.any_eq_true, h])
  simp only [bundleSeverity, hany]

end

namespace ComponentGraph

/-! ### Assembling -/

/-- The edge of a bundle. -/
def edgeOf (clamp : Bool) (source target : String) (calls : List Call) : ThreatEdge :=
  ⟨source, target, calls, (bundleSeverity calls).color, bundleLabel calls clamp⟩

/-- The edges of all bundles. -/
def edgesOf (clamp : Bool) (t : Bundles.Table) : List ThreatEdge :=
  t.toList.flatMap fun source =>
    source.2.toList.map fun bundle => edgeOf clamp source.1 bundle.1 bundle.2

variable {table : ComponentTable}

theorem edges_addNode (g : ComponentGraph) (n : GraphNode) : (g.addNode n).edges = g.edges := by
  rw [addNode]
  split <;> rfl

theorem edges_addFlow (g : ComponentGraph) (f : DataFlow) : (g.addFlow f).edges = g.edges := by
  simp only [addFlow, edges_addNode]

theorem edges_foldl_addFlow (flows : List DataFlow) (g : ComponentGraph) :
    (flows.foldl addFlow g).edges = g.edges :=
  eq_foldl edges edges_addFlow flows g

theorem addComponent_of_mem {key : String} (h : key ∈ table.keys) (g : ComponentGraph) :
    ∃ g', g.addComponent table key = .ok g' ∧ g'.edges = g.edges := by
  obtain ⟨c, hc⟩ := Ledger.mem_keys_iff.mp h
  rw [addComponent, hc]
  exact ⟨_, rfl, edges_addNode ..⟩

theorem addBundle_of_mem {bundle : String × List Call} (h : bundle.1 ∈ table.keys) (clamp : Bool)
    (source : String) (g : ComponentGraph) : ∃ g', addBundle table clamp source g bundle = .ok g' ∧
      g'.edges = g.edges ++ [edgeOf clamp source bundle.1 bundle.2] := by
  obtain ⟨g', hg, hedges⟩ := addComponent_of_mem h g
  rw [addBundle, hg]
  exact ⟨_, rfl, congrArg (· ++ _) hedges⟩

/-- Steps that succeed and add edges add them one after the other. -/
theorem edges_foldlM {α : Type} {step : ComponentGraph → α → Except MissingKey ComponentGraph}
    (new : α → List ThreatEdge) (as : List α)
    (h : ∀ a ∈ as, ∀ g, ∃ g', step g a = .ok g' ∧ g'.edges = g.edges ++ new a)
    (g : ComponentGraph) : ∃ g', as.foldlM step g = .ok g' ∧ g'.edges = g.edges ++ as.flatMap new := by
  induction as generalizing g with
  | nil => exact ⟨g, rfl, (List.append_nil _).symm⟩
  | cons a as ih =>
      obtain ⟨g₁, hstep, hedges⟩ := h a List.mem_cons_self g
      obtain ⟨g₂, hrest, hedges₂⟩ := ih (fun a ha => h a (List.mem_cons_of_mem _ ha)) g₁
      refine ⟨g₂, ?_, ?_⟩
      · rw [List.foldlM_cons, hstep]
        exact hrest
      · rw [hedges₂, hedges, List.append_assoc, List.flatMap_cons]

theorem addSource_of_mem {source : String × Ledger String (List Call)} (h : source.1 ∈ table.keys)
    (hbundles : ∀ target ∈ source.2.keys, target ∈ table.keys) (clamp : Bool)
    (g : ComponentGraph) : ∃ g', addSource table clamp g source = .ok g' ∧ g'.edges = g.edges ++
      source.2.toList.map fun bundle => edgeOf clamp source.1 bundle.1 bundle.2 := by
  obtain ⟨g₁, hg, hedges⟩ := addComponent_of_mem h g
  obtain ⟨g₂, hrest, hedges₂⟩ := edges_foldlM _ source.2.toList
    (fun bundle hb => addBundle_of_mem (hbundles _ (List.mem_map_of_mem hb)) clamp source.1) g₁
  refine ⟨g₂, ?_, ?_⟩
  · rw [addSource, hg]
    exact hrest
  · rw [hedges₂, hedges, List.map_eq_flatMap]

/-- **The graph has the edge of every bundle**, if no component is missing. -/
theorem edges_assemble {b : Bundles}
    (h : ∀ source targets, b.calls.get? source = some targets →
      source ∈ table.keys ∧ ∀ target ∈ targets.keys, target ∈ table.keys)
    (flows : List DataFlow) (clamp : Bool) : ∃ graph, assemble b table flows clamp = .ok graph ∧
      graph.edges = edgesOf clamp b.calls := by
  obtain ⟨g, hg, hedges⟩ := edges_foldlM _ b.calls.toList
    (fun source hs => addSource_of_mem (h _ _ (Ledger.mem_toList_iff.mp hs)).1
      (h _ _ (Ledger.mem_toList_iff.mp hs)).2 clamp)
    { mitigations := b.mitigations, exposures := b.exposures }
  refine ⟨_, ?_, (edges_foldl_addFlow flows g).trans hedges⟩
  rw [assemble, hg]
  rfl

/-- No two edges join the same components. -/
theorem nodup_edgesOf (clamp : Bool) (t : Bundles.Table) :
    ((edgesOf clamp t).map fun e => (e.source, e.target)).Nodup := by
  have hpairs : ∀ source : String × Ledger String (List Call),
      (source.2.toList.map fun bundle => edgeOf clamp source.1 bundle.1 bundle.2).map
        (fun e => (e.source, e.target)) = source.2.keys.map (Prod.mk source.1) := by
    intro source
    rw [List.map_map, Ledger.keys, List.map_map]
    rfl
  rw [edgesOf, List.map_flatMap]
  simp only [hpairs]
  refine List.nodup_flatMap.mpr ⟨fun source _ => ?_, ?_⟩
  · exact source.2.nodup_keys.map fun _ _ h => congrArg Prod.snd h
  · refine (List.pairwise_map.mp t.nodup_keys).imp fun {a b} hab => ?_
    rintro pair ha hb
    obtain ⟨_, -, rfl⟩ := List.mem_map.mp ha
    obtain ⟨_, -, hb⟩ := List.mem_map.mp hb
    exact hab (congrArg Prod.fst hb).symm

/-- Every edge is that of a bundle. -/
theorem mem_edgesOf_iff {clamp : Bool} {t : Bundles.Table} {e : ThreatEdge} :
    e ∈ edgesOf clamp t ↔ ∃ source target calls, Bundles.at? t source target = some calls ∧
      e = edgeOf clamp source target calls := by
  simp only [edgesOf, List.mem_flatMap, List.mem_map, Prod.exists, Ledger.mem_toList_iff,
    Bundles.at?, Option.bind_eq_some_iff]
  constructor
  · rintro ⟨source, targets, hs, target, calls, ht, rfl⟩
    exact ⟨source, target, calls, ⟨targets, hs, ht⟩, rfl⟩
  · rintro ⟨source, target, calls, ⟨targets, hs, ht⟩, rfl⟩
    exact ⟨source, targets, hs, target, calls, ht, rfl⟩

end ComponentGraph

/-! ### Bundles and effective calls -/

/-- The functions of the table are what is stored under its keys. -/
theorem Facts.mem_functions_iff {f : Facts} {key : String} {r : FunctionRecord} :
    (key, r) ∈ f.functions ↔ f.function? key = some r := by
  rw [function?, Option.map_eq_some_iff, functions, List.mem_map]
  constructor
  · rintro ⟨⟨k, id⟩, hmem, heq⟩
    cases heq
    exact ⟨id, Ledger.mem_toList_iff.mp hmem, rfl⟩
  · rintro ⟨id, hid, rfl⟩
    exact ⟨(key, id), Ledger.mem_toList_iff.mpr hid, rfl⟩

namespace Bundles

variable {f : Facts} {g : CallGraph} {source target : String}

theorem callsBetween_ne_nil_iff :
    callsBetween f g source target ≠ [] ↔ ∃ c ∈ effectiveCalls f g, c.Joins source target := by
  simp [callsBetween, List.filter_eq_nil_iff]

theorem at?_collect_eq_some_iff {calls : List Call} :
    at? (collect f g).calls source target = some calls ↔
      (∃ c ∈ effectiveCalls f g, c.Joins source target) ∧
        calls = callsBetween f g source target := by
  rw [at?_collect, ← callsBetween_ne_nil_iff]
  split
  · rename_i h
    simp [h]
  · rename_i h
    simp [h, eq_comm]

/-- No component of a bundle is missing from the component table. -/
theorem mem_keys_of_get? {targets : Ledger String (List Call)}
    (h : (collect f g).calls.get? source = some targets) :
    source ∈ (ComponentTable.analyze f).keys ∧
      ∀ target ∈ targets.keys, target ∈ (ComponentTable.analyze f).keys := by
  have hjoins : ∀ target ∈ targets.keys, ∃ c ∈ effectiveCalls f g, c.Joins source target := by
    intro target ht
    obtain ⟨calls, hcalls⟩ := Ledger.mem_keys_iff.mp ht
    have hat : at? (collect f g).calls source target = some calls :=
      Option.bind_eq_some_iff.mpr ⟨targets, h, hcalls⟩
    exact (at?_collect_eq_some_iff.mp hat).1
  constructor
  · -- a source has a bundle, and so an effective call from it
    rw [calls_collect] at h
    obtain ⟨target, ht⟩ := exists_mem_keys_of_get? h
    obtain ⟨c, hc, hs, -⟩ := hjoins target ht
    obtain ⟨caller, -, hcaller, -⟩ := mem_effectiveCalls_iff.mp hc
    exact ComponentTable.mem_keys_analyze.mpr ⟨caller, c.caller, hcaller, hs⟩
  · intro target ht
    obtain ⟨c, hc, -, hd⟩ := hjoins target ht
    obtain ⟨-, -, -, -, -, hcallee⟩ := mem_effectiveCalls_iff.mp hc
    exact ComponentTable.mem_keys_analyze.mpr
      ⟨c.key, c.callee, Facts.mem_functions_iff.mpr hcallee, hd⟩

end Bundles

namespace ComponentGraph

/-- The graph of any facts and any call graph is built, and its edges are those of the bundles. -/
theorem exists_build (f : Facts) (g : CallGraph) (clamp : Bool) :
    ∃ graph, build f g clamp = .ok (graph, (Bundles.collect f g).events) ∧
      assemble (Bundles.collect f g) (ComponentTable.analyze f) (flowsOf f) clamp = .ok graph ∧
      graph.edges = edgesOf clamp (Bundles.collect f g).calls := by
  obtain ⟨graph, hgraph, hedges⟩ := edges_assemble (b := Bundles.collect f g)
    (fun _ _ h => Bundles.mem_keys_of_get? h) (flowsOf f) clamp
  refine ⟨graph, ?_, hgraph, hedges⟩
  rw [build, buildWith, hgraph]
  rfl

/-- The edge is what the effective calls between its two components make it. -/
structure IsImage (f : Facts) (g : CallGraph) (clamp : Bool) (e : ThreatEdge) : Prop where
  calls : e.calls = callsBetween f g e.source e.target
  /-- The colour is that of a worst call. -/
  color : ∃ c ∈ e.calls, e.color = c.severity.color ∧
    ∀ c' ∈ e.calls, c'.severity.rank ≤ c.severity.rank
  /-- Three calls and more are summed up. -/
  label : e.label =
    if 3 ≤ e.calls.length then
      let exposed := callSum Call.exposures e.calls
      let mitigated := callSum Call.mitigations e.calls
      let other := e.calls.length - exposed - mitigated
      [[⟨Int.repr exposed, "red"⟩, ⟨Int.repr mitigated, "darkgreen"⟩,
        ⟨Int.repr (if clamp ∧ other < 0 then 0 else other), "black"⟩]]
    else distinct (e.calls.map fun c => [⟨c.callee, c.severity.color⟩])

/-- **The edges are the image of the effective calls**: the graph of any facts and any call graph is
built, and it has one edge for each pair of components that an effective call joins. -/
theorem build_edges (f : Facts) (g : CallGraph) (clamp : Bool) :
    ∃ graph events, build f g clamp = .ok (graph, events) ∧
      (graph.edges.map fun e => (e.source, e.target)).Nodup ∧
      (∀ source target, (∃ e ∈ graph.edges, e.source = source ∧ e.target = target) ↔
        ∃ c ∈ effectiveCalls f g,
          source ∈ c.caller.componentKeys ∧ target ∈ c.callee.componentKeys) ∧
      ∀ e ∈ graph.edges, IsImage f g clamp e := by
  obtain ⟨graph, hgraph, hedges⟩ := edges_assemble (b := Bundles.collect f g)
    (fun _ _ h => Bundles.mem_keys_of_get? h) (flowsOf f) clamp
  have hbuild : build f g clamp = .ok (graph, (Bundles.collect f g).events) := by
    rw [build, buildWith, hgraph]
    rfl
  refine ⟨graph, _, hbuild, ?_, fun source target => ⟨?_, ?_⟩, fun e he => ?_⟩
  · rw [hedges]
    exact nodup_edgesOf ..
  · rintro ⟨e, he, rfl, rfl⟩
    rw [hedges, mem_edgesOf_iff] at he
    obtain ⟨source, target, calls, hat, rfl⟩ := he
    exact (Bundles.at?_collect_eq_some_iff.mp hat).1
  · intro hjoins
    have hat := Bundles.at?_collect_eq_some_iff.mpr ⟨hjoins, rfl⟩
    refine ⟨edgeOf clamp source target (callsBetween f g source target), ?_, rfl, rfl⟩
    rw [hedges, mem_edgesOf_iff]
    exact ⟨source, target, _, hat, rfl⟩
  · rw [hedges, mem_edgesOf_iff] at he
    obtain ⟨source, target, calls, hat, rfl⟩ := he
    obtain ⟨hjoins, rfl⟩ := Bundles.at?_collect_eq_some_iff.mp hat
    obtain ⟨c, hc, hworst⟩ :=
      exists_severity_eq_bundleSeverity (Bundles.callsBetween_ne_nil_iff.mpr hjoins)
    refine ⟨rfl, ⟨c, hc, congrArg Severity.color hworst.symm, fun c' hc' => ?_⟩, rfl⟩
    rw [hworst]
    exact rank_le_bundleSeverity hc'

/-- A function that calls itself joins its component to itself. -/
example :
    let f := Facts.empty.putNew "F"
      { model := "M", function := "F", exposures := [⟨⟨"web", "app"⟩, "theft", "no login", none, ""⟩] }
    let g := CallGraph.empty.addCall "F" "F" ⟨1, 1⟩
    (build f g false).toOption.map (fun (graph, _) =>
      graph.edges.map fun e => (e.source, e.target, e.calls.length, e.color)) =
      some [("web-app", "web-app", 1, "red")] := by
  decide +kernel

end ComponentGraph

end ThreatModel
