import Mathlib.Algebra.Order.BigOperators.Group.List
import Mathlib.Algebra.Order.Group.Nat
import ThreatModel.Proofs.ComponentGraph.Colors

/-!
# More exposures — nothing looks safer for them

A record that is given more exposures (`FunctionRecord.expose`) keeps its calls, its mitigations and
its flows, and has all components it had and perhaps more.  So each effective call has a counterpart
that joins at least the same components and is no less severe (`exists_effectiveCall_expose`), the
flows are the same (`flowsOf_expose`), and of the totals those of exposures can only grow
(`callTotal_le`).

* `build_more_exposures`: every node and every edge is still there, in no safer colour.
-/

namespace ThreatModel

/-! ### Records and facts with more exposures -/

/-- The record with more exposures. -/
def FunctionRecord.expose (r : FunctionRecord) (extra : List ThreatFact) : FunctionRecord :=
  { r with exposures := r.exposures ++ extra }

/-- The facts with more exposures of one record. -/
def Facts.expose (f : Facts) (id : RecordId) (extra : List ThreatFact) : Facts :=
  f.update id (·.expose extra)

namespace FunctionRecord

variable {r : FunctionRecord} {extra : List ThreatFact} {key : String}

theorem expose_nil (r : FunctionRecord) : r.expose [] = r := by
  rw [expose, List.append_nil]

@[simp] theorem calls_expose : (r.expose extra).calls = r.calls := rfl

@[simp] theorem flows_expose : (r.expose extra).flows = r.flows := rfl

@[simp] theorem mitigations_expose : (r.expose extra).mitigations = r.mitigations := rfl

theorem mem_componentKeys_expose (h : key ∈ r.componentKeys) :
    key ∈ (r.expose extra).componentKeys := by
  rw [mem_componentKeys_iff] at h ⊢
  rcases h with hm | ⟨e, he, hkey⟩ | hc
  · exact .inl hm
  · exact .inr (.inl ⟨e, List.mem_append_left _ he, hkey⟩)
  · exact .inr (.inr hc)

/-- A call into the record is no less severe. -/
theorem rank_callInto_expose :
    (Bundles.callInto key r).severity.rank ≤
      (Bundles.callInto key (r.expose extra)).severity.rank := by
  refine rank_ofCounts?_mono (Int.ofNat_le.mpr ?_)
  rw [expose, List.length_append]
  exact Nat.le_add_right ..

end FunctionRecord

namespace Facts

variable {f : Facts} {id : RecordId} {extra : List ThreatFact} {key : String} {r : FunctionRecord}

/-- Each record is as it was, or has more exposures. -/
theorem exists_record_expose (f : Facts) (id : RecordId) (extra : List ThreatFact) (i : RecordId) :
    ∃ more, (f.expose id extra).record i = (f.record i).expose more := by
  have hget : (f.expose id extra).record i =
      (f.records[i]?.map fun r => if id = i then r.expose extra else r).getD default := by
    rw [record, expose, update, List.getD_eq_getElem?_getD, List.getElem?_modify]
    rfl
  rw [hget, record, List.getD_eq_getElem?_getD]
  cases f.records[i]? with
  | none => exact ⟨[], rfl⟩
  | some r =>
      by_cases hi : id = i
      · exact ⟨extra, if_pos hi⟩
      · exact ⟨[], (if_neg hi).trans r.expose_nil.symm⟩

theorem exists_mem_functions_expose (h : (key, r) ∈ f.functions) (id : RecordId)
    (extra : List ThreatFact) :
    ∃ more, (key, r.expose more) ∈ (f.expose id extra).functions := by
  obtain ⟨⟨key, i⟩, hmem, heq⟩ := List.mem_map.mp h
  cases heq
  obtain ⟨more, hmore⟩ := f.exists_record_expose id extra i
  exact ⟨more, List.mem_map.mpr ⟨(key, i), hmem, congrArg (Prod.mk key) hmore⟩⟩

theorem exists_function?_expose (h : f.function? key = some r) (id : RecordId)
    (extra : List ThreatFact) :
    ∃ more, (f.expose id extra).function? key = some (r.expose more) := by
  obtain ⟨i, hi, rfl⟩ := Option.map_eq_some_iff.mp h
  obtain ⟨more, hmore⟩ := f.exists_record_expose id extra i
  exact ⟨more, Option.map_eq_some_iff.mpr ⟨i, hi, hmore⟩⟩

end Facts

/-! ### Calls, flows and totals -/

section
variable {f : Facts} {g : CallGraph} {id : RecordId} {extra : List ThreatFact}

/-- **Each effective call has a counterpart** that joins the same components and is no less severe. -/
theorem exists_effectiveCall_expose {c : EffectiveCall} (hc : c ∈ effectiveCalls f g) :
    ∃ c' ∈ effectiveCalls (f.expose id extra) g,
      (∀ source target, c.Joins source target → c'.Joins source target) ∧
        c.call.severity.rank ≤ c'.call.severity.rank := by
  obtain ⟨caller, observed, hcaller, hget, hkey, hcallee⟩ := mem_effectiveCalls_iff.mp hc
  obtain ⟨_, hcaller'⟩ := Facts.exists_mem_functions_expose hcaller id extra
  obtain ⟨_, hcallee'⟩ := Facts.exists_function?_expose hcallee id extra
  refine ⟨⟨_, c.key, _⟩, mem_effectiveCalls_iff.mpr ⟨caller, observed, hcaller', hget, hkey, hcallee'⟩,
    fun source target hjoins => ?_, FunctionRecord.rank_callInto_expose⟩
  exact ⟨FunctionRecord.mem_componentKeys_expose hjoins.1,
    FunctionRecord.mem_componentKeys_expose hjoins.2⟩

theorem flowsOf_expose (f : Facts) (id : RecordId) (extra : List ThreatFact) :
    ComponentGraph.flowsOf (f.expose id extra) = ComponentGraph.flowsOf f := by
  rw [ComponentGraph.flowsOf, ComponentGraph.flowsOf, Facts.functions, Facts.functions,
    List.flatMap_map, List.flatMap_map]
  refine List.flatMap_congr fun e _ => ?_
  obtain ⟨more, hmore⟩ := f.exists_record_expose id extra e.2
  dsimp only
  rw [hmore, FunctionRecord.flows_expose]

/-- What counts no less in each record comes to no less over all calls, if the calls are the same. -/
theorem callTotal_le {f' : Facts} {count : FunctionRecord → Nat} (htable : f'.table = f.table)
    (hcalls : ∀ i, (f'.record i).calls = (f.record i).calls)
    (hcount : ∀ i, count (f.record i) ≤ count (f'.record i)) :
    callTotal f g count ≤ callTotal f' g count := by
  have hfunction : ∀ key, ((f.function? key).map count).getD 0 ≤
      ((f'.function? key).map count).getD 0 := by
    intro key
    rw [Facts.function?, Facts.function?, htable]
    cases f.table.get? key with
    | none => exact Nat.zero_le _
    | some i => exact hcount i
  rw [callTotal, callTotal, Facts.functions, Facts.functions, htable, List.map_map, List.map_map]
  refine List.sum_le_sum fun entry _ => ?_
  obtain ⟨caller, i⟩ := entry
  dsimp only [Function.comp_apply]
  cases g.get? caller with
  | none => exact Nat.zero_le _
  | some observed =>
      dsimp only
      rw [effectiveCallees, effectiveCallees, hcalls]
      exact Nat.add_le_add (hcount i) (List.sum_le_sum fun key _ => hfunction key)

/-- The totals of mitigations are as they were. -/
theorem callTotal_mitigations_expose (f : Facts) (g : CallGraph) (id : RecordId)
    (extra : List ThreatFact) (key : String) :
    callTotal (f.expose id extra) g (fun r => r.mitigations.countP (·.place.key = key)) =
      callTotal f g fun r => r.mitigations.countP (·.place.key = key) := by
  have hsame : ∀ i, ((f.expose id extra).record i).calls = (f.record i).calls ∧
      ((f.expose id extra).record i).mitigations = (f.record i).mitigations := by
    intro i
    obtain ⟨more, hmore⟩ := f.exists_record_expose id extra i
    simp [hmore]
  refine Nat.le_antisymm ?_ ?_
  · exact callTotal_le rfl (fun i => (hsame i).1.symm) fun i => by rw [(hsame i).2]
  · exact callTotal_le rfl (fun i => (hsame i).1) fun i => by rw [(hsame i).2]

/-- The totals of exposures do not go down. -/
theorem callTotal_exposures_expose (f : Facts) (g : CallGraph) (id : RecordId)
    (extra : List ThreatFact) (key : String) :
    callTotal f g (fun r => r.exposures.countP (·.place.key = key)) ≤
      callTotal (f.expose id extra) g fun r => r.exposures.countP (·.place.key = key) := by
  refine callTotal_le rfl (fun i => ?_) fun i => ?_
  · obtain ⟨more, hmore⟩ := f.exists_record_expose id extra i
    rw [hmore, FunctionRecord.calls_expose]
  · obtain ⟨more, hmore⟩ := f.exists_record_expose id extra i
    rw [hmore, FunctionRecord.expose, List.countP_append]
    exact Nat.le_add_right ..

end

namespace ComponentGraph

variable {graph graph' : ComponentGraph}

theorem edgeEnds_subset
    (h : ∀ e ∈ graph.edges, ∃ e' ∈ graph'.edges, e'.source = e.source ∧ e'.target = e.target)
    {key : String} (hkey : key ∈ graph.edgeEnds) : key ∈ graph'.edgeEnds := by
  obtain ⟨e, he, hend⟩ := List.mem_flatMap.mp hkey
  obtain ⟨e', he', hsource, htarget⟩ := h e he
  rw [← hsource, ← htarget] at hend
  exact List.mem_flatMap.mpr ⟨e', he', hend⟩

/-- **More exposures never look safer.**  The graphs of any facts, and of these facts with more
exposures of one record, are built over any call graph; each node of the first is a node of the
second, each edge of the first is an edge of the second, and both are in no safer colour there. -/
theorem build_more_exposures (f : Facts) (calls : CallGraph) (id : RecordId)
    (extra : List ThreatFact) (clamp : Bool) :
    ∃ graph events graph' events', build f calls clamp = .ok (graph, events) ∧
      build (f.expose id extra) calls clamp = .ok (graph', events') ∧
      (∀ key node, graph.nodes.get? key = some node →
        ∃ node', graph'.nodes.get? key = some node' ∧
          NoSafer nodeColors node.color node'.color) ∧
      ∀ e ∈ graph.edges, ∃ e' ∈ graph'.edges, e'.source = e.source ∧ e'.target = e.target ∧
        NoSafer edgeColors e.color e'.color := by
  obtain ⟨graph, hbuild, hg, hedges⟩ := exists_build f calls clamp
  obtain ⟨graph', hbuild', hg', hedges'⟩ := exists_build (f.expose id extra) calls clamp
  have hedge : ∀ e ∈ graph.edges, ∃ e' ∈ graph'.edges, e'.source = e.source ∧
      e'.target = e.target ∧ NoSafer edgeColors e.color e'.color := by
    rw [hedges, hedges']
    exact fun e he => exists_edge_noSafer (fun c hc => exists_effectiveCall_expose hc) he
  have hends : ∀ key, key ∈ graph.edgeEnds → key ∈ graph'.edgeEnds := fun key =>
    edgeEnds_subset fun e he =>
      let ⟨e', he', hsource, htarget, _⟩ := hedge e he
      ⟨e', he', hsource, htarget⟩
  have hflows : graph'.flowEnds = graph.flowEnds := by
    rw [flowEnds, flowEnds, (shows_assemble hg).flows_eq, (shows_assemble hg').flows_eq,
      flowsOf_expose]
  refine ⟨graph, _, graph', _, hbuild, hbuild', fun key node hnode => ?_, hedge⟩
  have hkey : key ∈ graph'.edgeEnds ∨ key ∈ graph'.flowEnds := by
    cases kind_of_get? hg hedges hnode with
    | box hend => exact .inl (hends key hend)
    | oval _ hend => exact .inr (hflows ▸ hend)
  obtain ⟨node', hnode'⟩ := Ledger.mem_keys_iff.mp (mem_nodes_of_mem_ends hg' hedges' hkey)
  refine ⟨node', hnode', ?_⟩
  rw [color_of_get? hbuild hg hedges hnode, color_of_get? hbuild' hg' hedges' hnode',
    callTotal_mitigations_expose]
  by_cases hend : key ∈ graph.edgeEnds
  · rw [if_pos hend, if_pos (hends key hend)]
    exact noSafer_colorOf? (callTotal_exposures_expose f calls id extra key)
  · rw [if_neg hend]
    by_cases hend' : key ∈ graph'.edgeEnds
    · rw [if_pos hend']
      exact noSafer_none_colorOf? _ _
    · rw [if_neg hend']
      exact ⟨0, 0, le_rfl, rfl, rfl⟩

/-- The end of a flow that a function is exposed in turns from an oval into a red box. -/
example :
    let f := Facts.empty.putNew "F"
      { model := "M", function := "F", flows := [.ofText "sends" "mail" "web:app" "web:app" ""] }
    let calls := CallGraph.empty.addCall "F" "F" ⟨1, 1⟩
    let shown := fun f => (build f calls false).toOption.map fun (graph, _) =>
      graph.nodes.toList.map fun (key, n) => (key, n.shape, n.color)
    shown f = some [("web-app", "oval", none)] ∧
      shown (f.expose 0 [⟨⟨"web", "app"⟩, "theft", "no login", none, ""⟩]) =
        some [("web-app", "box", some "red")] := by
  decide +kernel

end ComponentGraph

end ThreatModel
