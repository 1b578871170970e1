import ThreatModel.Proofs.ComponentGraph.Nodes

/-!
# Colours — what two graphs can be compared by

Colours have an order, from the safest to the worst (`nodeColors`, `edgeColors`), and `NoSafer` says
that a colour did not go down in it.

* `exists_edge_noSafer`: if each effective call of one graph has a counterpart in another that joins
  the same components and is no less severe, then each edge has its counterpart, in no safer colour.
* `color_of_get?`: a node has the colour of its totals if it is an end of edges, and none otherwise.
* `noSafer_colorOf?`: with more exposures, the colour of totals is no safer.
-/

namespace ThreatModel

/-- The colours of nodes, from the safest to the worst. -/
def nodeColors : List (Option String) := [none, some "darkgreen", some "orange", some "red"]

/-- The colours of edges, from the safest to the worst. -/
def edgeColors : List String := ["black", "darkgreen", "orange", "red"]

/-- In a list from the safest to the worst, `new` does not come before `old`. -/
def NoSafer {α : Type} (colors : List α) (old new : α) : Prop :=
  ∃ i j : Nat, i ≤ j ∧ colors[i]? = some old ∧ colors[j]? = some new

theorem Severity.getElem?_rank_edgeColors (s : Severity) : edgeColors[s.rank]? = some s.color := by
  cases s <;> rfl

theorem Severity.noSafer_color {s s' : Severity} (h : s.rank ≤ s'.rank) :
    NoSafer edgeColors s.color s'.color :=
  ⟨s.rank, s'.rank, h, s.getElem?_rank_edgeColors, s'.getElem?_rank_edgeColors⟩

/-! ### Calls -/

/-- With more exposures, what is counted is no less severe. -/
theorem rank_ofCounts?_mono {m e e' : Int} (h : e ≤ e') :
    ((Severity.ofCounts? m e).getD .neutral).rank ≤
      ((Severity.ofCounts? m e').getD .neutral).rank := by
  by_cases he : 0 < e
  · rw [Severity.ofCounts?, Severity.ofCounts?, if_pos he,
      if_pos (Int.lt_of_lt_of_le he h)]
  · by_cases he' : 0 < e'
    · -- the first exposures make what was mitigated partly so, and all else exposed
      by_cases hm : 0 < m <;> simp [Severity.ofCounts?, hm, he, he', Severity.rank]
    · rw [Severity.ofCounts?, Severity.ofCounts?, if_neg he, if_neg he']

/-- A bundle is as severe as another if each call of that one has a counterpart in it. -/
theorem rank_bundleSeverity_mono {calls calls' : List Call}
    (h : ∀ c ∈ calls, ∃ c' ∈ calls', c.severity.rank ≤ c'.severity.rank) :
    (bundleSeverity calls).rank ≤ (bundleSeverity calls').rank := by
  by_cases hnil : calls = []
  · subst hnil
    exact Nat.zero_le _
  · obtain ⟨c, hc, hworst⟩ := exists_severity_eq_bundleSeverity hnil
    obtain ⟨c', hc', hrank⟩ := h c hc
    rw [← hworst]
    exact hrank.trans (rank_le_bundleSeverity hc')

/-! ### Edges -/

section
variable {f f' : Facts} {g g' : CallGraph} {clamp : Bool}

/-- An edge is that of the effective calls between its components, if there are any. -/
theorem mem_edgesOf_collect_iff {e : ThreatEdge} :
    e ∈ ComponentGraph.edgesOf clamp (Bundles.collect f g).calls ↔
      (∃ c ∈ effectiveCalls f g, c.Joins e.source e.target) ∧
        e = ComponentGraph.edgeOf clamp e.source e.target (callsBetween f g e.source e.target) := by
  rw [ComponentGraph.mem_edgesOf_iff]
  constructor
  · rintro ⟨source, target, calls, hat, rfl⟩
    obtain ⟨hjoins, rfl⟩ := Bundles.at?_collect_eq_some_iff.mp hat
    exact ⟨hjoins, rfl⟩
  · rintro ⟨hjoins, he⟩
    exact ⟨_, _, _, Bundles.at?_collect_eq_some_iff.mpr ⟨hjoins, rfl⟩, he⟩

/-- **Each edge has a counterpart in no safer colour**, if each effective call has one that joins at
least the same components and is no less severe. -/
theorem exists_edge_noSafer
    (h : ∀ c ∈ effectiveCalls f g, ∃ c' ∈ effectiveCalls f' g',
      (∀ source target, c.Joins source target → c'.Joins source target) ∧
        c.call.severity.rank ≤ c'.call.severity.rank)
    {e : ThreatEdge} (he : e ∈ ComponentGraph.edgesOf clamp (Bundles.collect f g).calls) :
    ∃ e' ∈ ComponentGraph.edgesOf clamp (Bundles.collect f' g').calls,
      e'.source = e.source ∧ e'.target = e.target ∧ NoSafer edgeColors e.color e'.color := by
  obtain ⟨⟨c, hc, hjoins⟩, heq⟩ := mem_edgesOf_collect_iff.mp he
  obtain ⟨c', hc', hjoins', -⟩ := h c hc
  refine ⟨ComponentGraph.edgeOf clamp e.source e.target (callsBetween f' g' e.source e.target),
    mem_edgesOf_collect_iff.mpr ⟨⟨c', hc', hjoins' _ _ hjoins⟩, rfl⟩, rfl, rfl, ?_⟩
  rw [heq]
  refine Severity.noSafer_color (rank_bundleSeverity_mono fun call hcall => ?_)
  obtain ⟨c, hc, rfl⟩ := List.mem_map.mp hcall
  obtain ⟨hc, hjoins⟩ := List.mem_filter.mp hc
  obtain ⟨c', hc', hjoins', hrank⟩ := h c hc
  have hmem : c' ∈ (effectiveCalls f' g').filter (·.Joins e.source e.target) :=
    List.mem_filter.mpr ⟨hc', decide_eq_true (hjoins' _ _ (of_decide_eq_true hjoins))⟩
  exact ⟨c'.call, List.mem_map_of_mem hmem, hrank⟩

end

/-! ### Nodes -/

namespace ComponentGraph

/-- A node's colour stands where the severity of its totals does. -/
theorem getElem?_nodeColors (m e : Nat) :
    nodeColors[((Severity.ofCounts? m e).getD .neutral).rank]? = some (colorOf? m e) := by
  cases m <;> cases e <;> simp [Severity.ofCounts?, Severity.rank, nodeColors, colorOf?]

/-- With more exposures, the colour of totals is no safer. -/
theorem noSafer_colorOf? {m e e' : Nat} (h : e ≤ e') :
    NoSafer nodeColors (colorOf? m e) (colorOf? m e') :=
  ⟨_, _, rank_ofCounts?_mono (Int.ofNat_le.mpr h), getElem?_nodeColors m e,
    getElem?_nodeColors m e'⟩

/-- No colour is safer than none. -/
theorem noSafer_none_colorOf? (m e : Nat) : NoSafer nodeColors none (colorOf? m e) :=
  ⟨0, _, Nat.zero_le _, rfl, getElem?_nodeColors m e⟩

variable {f : Facts} {calls : CallGraph} {clamp : Bool} {graph : ComponentGraph}
  {events : List Event}

/-- **A node has the colour of its totals if it is an end of edges, and none otherwise.** -/
theorem color_of_get? (hbuild : build f calls clamp = .ok (graph, events))
    (hg : assemble (Bundles.collect f calls) (ComponentTable.analyze f) (flowsOf f) clamp =
      .ok graph)
    (hedges : graph.edges = edgesOf clamp (Bundles.collect f calls).calls) {key : String}
    {node : GraphNode} (hnode : graph.nodes.get? key = some node) :
    node.color = if key ∈ graph.edgeEnds then
        colorOf? (callTotal f calls fun r => r.mitigations.countP (·.place.key = key))
          (callTotal f calls fun r => r.exposures.countP (·.place.key = key))
      else none := by
  have hseverities := hasSeverities_of_buildWith hbuild
  have hkind := kind_of_get? hg hedges hnode
  cases hkind with
  | box hend hc =>
      rw [if_pos hend, ← hseverities.mitigations, ← hseverities.exposures]
      exact hseverities.color key _ hnode rfl
  | oval hno hend hp => rw [if_neg hno]; rfl

end ComponentGraph

end ThreatModel
