import Mathlib.Algebra.BigOperators.Group.List.Basic
import Mathlib.Data.List.Perm.Basic
import ThreatModel.Proofs.ComponentGraph.Colors

/-!
# Reordering — the picture does not depend on the order of what it is drawn from

Facts and call graphs are read in some order: that of the functions in the table, of the callers,
and of the callees of each caller.  In another order the same effective calls come in another order
(`effectiveCalls_perm`), and so do the calls in each bundle; the worst of them and their sums are
the same (`bundleSeverity_perm`, `bundleLabel_perm`), and so is what is counted over all calls
(`callTotal_perm`).  A tally lists nothing that it did not count (`Bundles.positive_collect`), so
its counts determine it as a map.

Which spelling of a component is the first, and which of two callees is named first in a label, does
depend on the order; `SamePicture` is what does not.

* `build_reordered`: graphs that are built from the same in another order show the same picture.
-/

namespace ThreatModel

/-- The same callers in another order, each with the same callees in another order. -/
structure CallGraph.Reorders (g g' : CallGraph) : Prop where
  callers : g.keys.Perm g'.keys
  callees : ∀ e ∈ g.toList, ∀ e' ∈ g'.toList, e.1 = e'.1 → e.2.toList.Perm e'.2.toList

/-! ### Bundles in another order -/

section
variable {calls calls' : List Call}

theorem bundleSeverity_perm (h : calls.Perm calls') :
    bundleSeverity calls = bundleSeverity calls' :=
  bundleSeverity_congr fun _ => h.mem_iff

theorem callSum_perm (h : calls.Perm calls') (count : Call → Int) :
    callSum count calls = callSum count calls' :=
  h.foldl_eq' (fun c _ c' _ n => Int.add_right_comm n (count c) (count c')) 0

/-- Bundles that are summed up have the same label in any order. -/
theorem bundleLabel_perm (h : calls.Perm calls') (hlong : summaryThreshold ≤ calls.length)
    (clamp : Bool) : bundleLabel calls clamp = bundleLabel calls' clamp := by
  rw [bundleLabel, bundleLabel, if_pos hlong, if_pos (h.length_eq ▸ hlong), summaryLine,
    summaryLine, callSum_perm h, callSum_perm h, h.length_eq]

end

/-! ### Effective calls in another order -/

/-- The functions stored under keys do not depend on the order of the table. -/
theorem Facts.function?_eq_of_perm {f f' : Facts} (h : f.functions.Perm f'.functions)
    (key : String) : f.function? key = f'.function? key :=
  Option.ext fun r => by rw [← mem_functions_iff, ← mem_functions_iff, h.mem_iff]

theorem effectiveCallees_perm (r : FunctionRecord) {observed observed' : List String}
    (h : observed.Perm observed') :
    (effectiveCallees r observed).Perm (effectiveCallees r observed') :=
  distinct_perm (h.append_left _)

section
variable {f f' : Facts} {g g' : CallGraph}

/-- A caller of one call graph is one of the other, with the same callees but for their order. -/
theorem CallGraph.Reorders.row (h : g.Reorders g') (caller : String) :
    g.get? caller = none ∧ g'.get? caller = none ∨
      ∃ row row', g.get? caller = some row ∧ g'.get? caller = some row' ∧
        row.keys.Perm row'.keys := by
  cases hrow : g.get? caller with
  | none =>
      refine .inl ⟨rfl, ?_⟩
      rwa [Ledger.get?_eq_none_iff, ← h.callers.mem_iff, ← Ledger.get?_eq_none_iff]
  | some row =>
      have hcaller : caller ∈ g'.keys := h.callers.mem_iff.mp (Ledger.mem_keys_iff.mpr ⟨row, hrow⟩)
      obtain ⟨row', hrow'⟩ := Ledger.mem_keys_iff.mp hcaller
      have hperm := h.callees _ (Ledger.mem_toList_iff.mpr hrow) _
        (Ledger.mem_toList_iff.mpr hrow') rfl
      exact .inr ⟨row, row', rfl, hrow', hperm.map Prod.fst⟩

/-- **The effective calls come in another order.** -/
theorem effectiveCalls_perm (hf : f.functions.Perm f'.functions) (hg : g.Reorders g') :
    (effectiveCalls f g).Perm (effectiveCalls f' g') := by
  refine (hf.flatMap_right _).trans (List.Perm.flatMap_left _ fun ⟨caller, r⟩ _ => ?_)
  simp only [Facts.function?_eq_of_perm hf]
  rcases hg.row caller with ⟨hrow, hrow'⟩ | ⟨row, row', hrow, hrow', hperm⟩
  · rw [hrow, hrow']
  · rw [hrow, hrow', Option.toList_some, Option.toList_some, List.flatMap_singleton,
      List.flatMap_singleton]
    exact (effectiveCallees_perm r hperm).flatMap_right _

theorem callsBetween_perm (hf : f.functions.Perm f'.functions) (hg : g.Reorders g')
    (source target : String) :
    (callsBetween f g source target).Perm (callsBetween f' g' source target) :=
  ((effectiveCalls_perm hf hg).filter _).map _

/-- What is counted over all calls does not depend on their order. -/
theorem callTotal_perm (hf : f.functions.Perm f'.functions) (hg : g.Reorders g')
    (count : FunctionRecord → Nat) : callTotal f g count = callTotal f' g' count := by
  refine ((hf.map _).sum_eq).trans (congrArg List.sum (List.map_congr_left fun ⟨caller, r⟩ _ => ?_))
  simp only [Facts.function?_eq_of_perm hf]
  rcases hg.row caller with ⟨hrow, hrow'⟩ | ⟨row, row', hrow, hrow', hperm⟩
  · rw [hrow, hrow']
  · rw [hrow, hrow']
    exact congrArg (count r + ·) (((effectiveCallees_perm r hperm).map _).sum_eq)

end

/-! ### Tallies as maps -/

namespace Tally

variable {κ : Type} [DecidableEq κ] {t : Tally κ}

/-- Nothing is listed that was not counted. -/
def Positive (t : Tally κ) : Prop := ∀ k n, t.get? k = some n → 0 < n

theorem positive_bump (h : t.Positive) (k : κ) : (t.bump k).Positive := by
  intro k' n hget
  rw [bump, Ledger.get?_alter] at hget
  split at hget
  · cases hget
    exact Nat.succ_pos _
  · exact h k' n hget

theorem positive_foldl_bump {α : Type} (h : t.Positive) (key : α → κ) (as : List α) :
    (as.foldl (fun t a => bump t (key a)) t).Positive :=
  List.foldlRecOn as _ h fun _ ht a _ => positive_bump ht (key a)

end Tally

namespace Bundles

/-- What counting, adding calls and reporting keep, collecting keeps. -/
theorem collect_of_kept (holds : Bundles → Prop) (hcount : ∀ b r, holds b → holds (b.countFacts r))
    (hcall : ∀ b source target c, holds b → holds (b.addCall source target c))
    (hreport : ∀ (b : Bundles) events, holds b → holds { b with events := events })
    (hempty : holds {}) (f : Facts) (g : CallGraph) : holds (collect f g) := by
  have hcallee : ∀ caller sources b key, holds b → holds (addCallee f caller sources b key) := by
    intro caller sources b key hb
    rw [addCallee]
    cases f.function? key with
    | none => exact hb
    | some r =>
        refine List.foldlRecOn sources _ (hcount _ r (hreport b _ hb)) fun b hb source _ => ?_
        exact List.foldlRecOn r.componentKeys _ hb fun b hb target _ => hcall b _ _ _ hb
  refine List.foldlRecOn f.functions _ hempty fun b hb entry _ => ?_
  obtain ⟨caller, r⟩ := entry
  dsimp only
  rw [addCaller]
  cases g.get? caller with
  | none => exact hreport b _ hb
  | some observed =>
      exact List.foldlRecOn _ _ (hcount _ r (hreport _ _ (hreport b _ hb))) fun b hb key _ =>
        hcallee caller _ b key hb

/-- Nothing is listed in the tallies that was not counted. -/
theorem positive_collect (f : Facts) (g : CallGraph) :
    (collect f g).mitigations.Positive ∧ (collect f g).exposures.Positive :=
  collect_of_kept (fun b => b.mitigations.Positive ∧ b.exposures.Positive)
    (fun _ _ h => ⟨Tally.positive_foldl_bump h.1 _ _, Tally.positive_foldl_bump h.2 _ _⟩)
    (fun _ _ _ _ h => h) (fun _ _ h => h) ⟨nofun, nofun⟩ f g

variable {f : Facts} {g : CallGraph} {component : String}

theorem get?_mitigations_collect : (collect f g).mitigations.get? component =
    Tally.entry (callTotal f g fun r => r.mitigations.countP (·.place.key = component)) := by
  rw [Tally.get?_eq_entry ((positive_collect f g).1 component), count_mitigations_collect]

theorem get?_exposures_collect : (collect f g).exposures.get? component =
    Tally.entry (callTotal f g fun r => r.exposures.countP (·.place.key = component)) := by
  rw [Tally.get?_eq_entry ((positive_collect f g).2 component), count_exposures_collect]

end Bundles

/-! ### The picture -/

namespace ComponentGraph

/-- The two graphs show the same but for the order of what they list, the spelling of components and
the labels of bundles of one or two calls. -/
structure SamePicture (graph graph' : ComponentGraph) : Prop where
  /-- There are nodes for the same keys, in the same shapes and colours. -/
  nodes : ∀ key, (graph.nodes.get? key).map (fun n => (n.shape, n.color)) =
    (graph'.nodes.get? key).map fun n => (n.shape, n.color)
  /-- The same pairs of components are joined. -/
  pairs : (graph.edges.map fun e => (e.source, e.target)).Perm
    (graph'.edges.map fun e => (e.source, e.target))
  calls : ∀ e ∈ graph.edges, ∀ e' ∈ graph'.edges, e.source = e'.source → e.target = e'.target →
    e.calls.Perm e'.calls ∧ e.color = e'.color ∧ (3 ≤ e.calls.length → e.label = e'.label)
  flows : graph.flows.Perm graph'.flows
  mitigations : ∀ key, graph.mitigations.get? key = graph'.mitigations.get? key
  exposures : ∀ key, graph.exposures.get? key = graph'.exposures.get? key

section
variable {f f' : Facts} {calls calls' : CallGraph} {clamp : Bool} {graph graph' : ComponentGraph}
  {events : List Event}

/-- **What is seen of a component**: a box in the colour of its totals if it is an end of edges, an
uncoloured oval if it is an end of flows only, and otherwise nothing. -/
theorem look_eq (hbuild : build f calls clamp = .ok (graph, events))
    (hg : assemble (Bundles.collect f calls) (ComponentTable.analyze f) (flowsOf f) clamp =
      .ok graph)
    (hedges : graph.edges = edgesOf clamp (Bundles.collect f calls).calls) (key : String) :
    (graph.nodes.get? key).map (fun n => (n.shape, n.color)) =
      if key ∈ graph.edgeEnds then
        some ("box", colorOf? (callTotal f calls fun r => r.mitigations.countP (·.place.key = key))
          (callTotal f calls fun r => r.exposures.countP (·.place.key = key)))
      else if key ∈ graph.flowEnds then some ("oval", none)
      else none := by
  cases hnode : graph.nodes.get? key with
  | none =>
      -- every end has a node
      have hno := fun hend =>
        Ledger.get?_eq_none_iff.mp hnode (mem_nodes_of_mem_ends hg hedges hend)
      rw [if_neg fun h => hno (.inl h), if_neg fun h => hno (.inr h)]
      rfl
  | some node =>
      have hcolor := color_of_get? hbuild hg hedges hnode
      cases kind_of_get? hg hedges hnode with
      | box hend =>
          rw [if_pos hend] at hcolor ⊢
          rw [← hcolor]
          rfl
      | oval hno hend =>
          rw [if_neg hno, if_pos hend]
          rfl

theorem mem_edgeEnds_of_pairs (h : (graph.edges.map fun e => (e.source, e.target)).Perm
    (graph'.edges.map fun e => (e.source, e.target))) (key : String) :
    key ∈ graph.edgeEnds ↔ key ∈ graph'.edgeEnds := by
  have hends : ∀ g : ComponentGraph, g.edgeEnds =
      (g.edges.map fun e => (e.source, e.target)).flatMap fun e => [e.1, e.2] := fun g => by
    rw [edgeEnds, List.flatMap_map]
  rw [hends, hends, (h.flatMap_right _).mem_iff]

/-- The pairs that are joined are those that effective calls join, each once. -/
theorem pairs_perm (hf : f.functions.Perm f'.functions) (hcalls : calls.Reorders calls')
    (clamp : Bool) :
    ((edgesOf clamp (Bundles.collect f calls).calls).map fun e => (e.source, e.target)).Perm
      ((edgesOf clamp (Bundles.collect f' calls').calls).map fun e => (e.source, e.target)) := by
  have hjoined : ∀ (f : Facts) (calls : CallGraph) (pair : String × String), pair ∈
      (edgesOf clamp (Bundles.collect f calls).calls).map (fun e => (e.source, e.target)) ↔
        ∃ c ∈ effectiveCalls f calls, c.Joins pair.1 pair.2 := by
    intro f calls pair
    rw [List.mem_map]
    constructor
    · rintro ⟨e, he, rfl⟩
      exact (mem_edgesOf_collect_iff.mp he).1
    · intro hjoins
      exact ⟨edgeOf clamp pair.1 pair.2 (callsBetween f calls pair.1 pair.2),
        mem_edgesOf_collect_iff.mpr ⟨hjoins, rfl⟩, rfl⟩
  refine (List.perm_ext_iff_of_nodup (nodup_edgesOf ..) (nodup_edgesOf ..)).mpr fun pair => ?_
  rw [hjoined, hjoined]
  simp only [(effectiveCalls_perm hf hcalls).mem_iff]

end

/-- **The picture does not depend on the order** in which the functions stand in the table, the
callers in the call graph, and the callees at each caller. -/
theorem build_reordered {f f' : Facts} (hf : f.functions.Perm f'.functions)
    {calls calls' : CallGraph} (hcalls : calls.Reorders calls') (clamp : Bool) :
    ∃ graph events graph' events', build f calls clamp = .ok (graph, events) ∧
      build f' calls' clamp = .ok (graph', events') ∧ SamePicture graph graph' := by
  obtain ⟨graph, hbuild, hg, hedges⟩ := exists_build f calls clamp
  obtain ⟨graph', hbuild', hg', hedges'⟩ := exists_build f' calls' clamp
  have hpairs := pairs_perm hf hcalls clamp
  rw [← hedges, ← hedges'] at hpairs
  have hshows := shows_assemble hg
  have hshows' := shows_assemble hg'
  have hflows : graph.flows.Perm graph'.flows := by
    rw [hshows.flows_eq, hshows'.flows_eq]
    exact (hf.flatMap_right _).map _
  have hflowEnds : ∀ key, key ∈ graph.flowEnds ↔ key ∈ graph'.flowEnds := fun key =>
    (hflows.flatMap_right _).mem_iff
  refine ⟨graph, _, graph', _, hbuild, hbuild', fun key => ?_, hpairs, fun e he e' he' hs ht => ?_,
    hflows, fun key => ?_, fun key => ?_⟩
  · rw [look_eq hbuild hg hedges, look_eq hbuild' hg' hedges', callTotal_perm hf hcalls,
      callTotal_perm hf hcalls]
    simp only [mem_edgeEnds_of_pairs hpairs, hflowEnds]
  · rw [hedges] at he
    rw [hedges'] at he'
    have hperm := callsBetween_perm hf hcalls e.source e.target
    rw [(mem_edgesOf_collect_iff.mp he).2, (mem_edgesOf_collect_iff.mp he').2, ← hs, ← ht]
    exact ⟨hperm, congrArg Severity.color (bundleSeverity_perm hperm), fun hlong =>
      bundleLabel_perm hperm hlong clamp⟩
  · rw [hshows.mitigations_eq, hshows'.mitigations_eq, Bundles.get?_mitigations_collect,
      Bundles.get?_mitigations_collect, callTotal_perm hf hcalls]
  · rw [hshows.exposures_eq, hshows'.exposures_eq, Bundles.get?_exposures_collect,
      Bundles.get?_exposures_collect, callTotal_perm hf hcalls]

/-- Two functions and their two callees each, the other way round. -/
theorem build_reordered_swapped :
    let first : FunctionRecord :=
      { model := "M", function := "F",
        exposures := [⟨⟨"web", "app"⟩, "theft", "no login", none, ""⟩] }
    let second : FunctionRecord :=
      { model := "M", function := "G",
        mitigations := [⟨⟨"Web", "app"⟩, "theft", "a login", none, ""⟩] }
    let f := (Facts.empty.putNew "F" first).putNew "G" second
    let f' := (Facts.empty.putNew "G" second).putNew "F" first
    let calls := ((CallGraph.empty.addCall "F" "F" ⟨1, 1⟩).addCall "F" "G" ⟨2, 1⟩).addCall
      "G" "F" ⟨3, 1⟩
    let calls' := ((CallGraph.empty.addCall "G" "F" ⟨3, 1⟩).addCall "F" "G" ⟨2, 1⟩).addCall
      "F" "F" ⟨1, 1⟩
    f.functions.Perm f'.functions ∧ calls.Reorders calls' ∧
      ∃ graph events graph' events', build f calls false = .ok (graph, events) ∧
        build f' calls' false = .ok (graph', events') ∧ SamePicture graph graph' := by
  intro first second f f' calls calls'
  have hf : f.functions.Perm f'.functions := by decide
  have hcalls : calls.Reorders calls' := ⟨by decide, by decide⟩
  exact ⟨hf, hcalls, build_reordered hf hcalls false⟩

end ComponentGraph

end ThreatModel
