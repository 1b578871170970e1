import ThreatModel.Proofs.ComponentGraph.Nodes

/-!
# Lookups — which components a graph looks up, and when one is missing

While a graph is assembled, the component of each end of a bundle is looked up in the table, the
source's first and then those of its targets; nothing else is.  So assembling fails at the first of
these ends that the table does not have (`assemble_eq_error_iff`), and depends on no other entry of
it (`assemble_congr`).

* `build_looks_up`: the ends of the bundles are the ends of the edges of the graph, which is built
  over the table of the facts themselves.
-/

namespace ThreatModel.ComponentGraph

variable {table table' : ComponentTable} {clamp : Bool}

/-- The error of a key that a table does not have. -/
def missing? (table : ComponentTable) (key : String) : Option MissingKey :=
  if key ∈ table.keys then none else some ⟨key⟩

/-! ### Failing -/

theorem addComponent_eq_error_iff (g : ComponentGraph) (key : String) (e : MissingKey) :
    g.addComponent table key = .error e ↔ missing? table key = some e := by
  rw [addComponent, missing?]
  cases hget : table.get? key with
  | none =>
      have hkey : key ∉ table.keys := fun h => by
        obtain ⟨c, hc⟩ := Ledger.mem_keys_iff.mp h
        rw [hget] at hc
        cases hc
      rw [if_neg hkey]
      exact ⟨fun h => by cases h; rfl, fun h => by cases h; rfl⟩
  | some c =>
      rw [if_pos (Ledger.mem_keys_iff.mpr ⟨c, hget⟩)]
      constructor
      · intro h
        cases h
      · intro h
        cases h

theorem addBundle_eq_error_iff (source : String) (g : ComponentGraph)
    (bundle : String × List Call) (e : MissingKey) :
    addBundle table clamp source g bundle = .error e ↔ missing? table bundle.1 = some e :=
  bind_ok_eq_error_iff.trans (addComponent_eq_error_iff g bundle.1 e)

theorem addSource_eq_error_iff (g : ComponentGraph)
    (source : String × Ledger String (List Call)) (e : MissingKey) :
    addSource table clamp g source = .error e ↔
      (source.1 :: source.2.keys).findSome? (missing? table) = some e := by
  have hfirst : ∀ e, g.addComponent table source.1 = .error e ↔
      missing? table source.1 = some e := addComponent_eq_error_iff g source.1
  rw [addSource, List.findSome?_cons]
  cases hg : g.addComponent table source.1 with
  | error e' =>
      rw [(hfirst e').mp hg]
      exact ⟨fun h => by cases h; rfl, fun h => by cases h; rfl⟩
  | ok g₁ =>
      rw [eq_none_of_ok hfirst hg, Ledger.keys, List.findSome?_map]
      exact foldlM_eq_error_iff (addBundle_eq_error_iff source.1) _ g₁ e

theorem findSome?_flatMap {α β γ : Type} (g : α → List β) (p : β → Option γ) (as : List α) :
    (as.flatMap g).findSome? p = as.findSome? fun a => (g a).findSome? p := by
  induction as with
  | nil => rfl
  | cons a as ih =>
      rw [List.flatMap_cons, List.findSome?_append, ih, List.findSome?_cons]
      cases (g a).findSome? p <;> rfl

/-- **Assembling fails at the first end of a bundle that the table does not have.** -/
theorem assemble_eq_error_iff (b : Bundles) (xs : List DataFlow) (e : MissingKey) :
    assemble b table xs clamp = .error e ↔
      (linked b.calls).findSome? (missing? table) = some e := by
  have hsource : ∀ g source e, addSource table clamp g source = .error e ↔
      (source.1 :: source.2.keys).findSome? (missing? table) = some e := addSource_eq_error_iff
  rw [linked, findSome?_flatMap]
  exact bind_ok_eq_error_iff.trans (foldlM_eq_error_iff hsource b.calls.toList _ e)

/-! ### Looking up -/

theorem addComponent_congr {key : String} (h : table.get? key = table'.get? key)
    (g : ComponentGraph) : g.addComponent table key = g.addComponent table' key := by
  rw [addComponent, addComponent, h]

theorem addSource_congr {source : String × Ledger String (List Call)}
    (h : ∀ key ∈ source.1 :: source.2.keys, table.get? key = table'.get? key)
    (g : ComponentGraph) : addSource table clamp g source = addSource table' clamp g source := by
  obtain ⟨hsource, htargets⟩ := List.forall_mem_cons.mp h
  rw [addSource, addSource, addComponent_congr hsource]
  refine congrArg _ (funext fun g₁ => foldlM_congr (fun bundle hb g₂ => ?_) g₁)
  rw [addBundle, addBundle, addComponent_congr (htargets _ (List.mem_map_of_mem hb))]

/-- **Assembling depends on the components of the ends of the bundles only.** -/
theorem assemble_congr {b : Bundles} (xs : List DataFlow)
    (h : ∀ key ∈ linked b.calls, table.get? key = table'.get? key) :
    assemble b table xs clamp = assemble b table' xs clamp := by
  have hsources : ∀ source ∈ b.calls.toList, ∀ g,
      addSource table clamp g source = addSource table' clamp g source := fun source hs =>
    addSource_congr fun key hkey => h key (List.mem_flatMap.mpr ⟨source, hs, hkey⟩)
  rw [assemble, assemble, foldlM_congr hsources]

/-! ### The ends of the edges -/

/-- A source is looked up before its targets, so it is missing first. -/
theorem findSome?_pairs {γ : Type} (p : String → Option γ) (source : String) {targets : List String}
    (h : targets ≠ []) :
    (targets.flatMap fun target => [source, target]).findSome? p =
      (source :: targets).findSome? p := by
  rw [List.findSome?_cons]
  cases hp : p source with
  | some e =>
      obtain ⟨target, targets, rfl⟩ := List.exists_cons_of_ne_nil h
      rw [List.flatMap_cons, List.cons_append, List.findSome?_cons, hp]
  | none =>
      clear h
      induction targets with
      | nil => rfl
      | cons target targets ih =>
          rw [List.flatMap_cons, List.cons_append, List.findSome?_cons, hp, List.singleton_append,
            List.findSome?_cons, List.findSome?_cons]
          cases p target with
          | some e => rfl
          | none => exact ih

theorem findSome?_linked {γ : Type} (p : String → Option γ) {t : Bundles.Table}
    (h : ∀ source targets, t.get? source = some targets → ∃ target, target ∈ targets.keys) :
    (linked t).findSome? p =
      ((edgesOf clamp t).flatMap fun e => [e.source, e.target]).findSome? p := by
  have hrows : ∀ source ∈ t.toList, source.2.keys ≠ [] := fun source hs => by
    obtain ⟨target, ht⟩ := h _ _ (Ledger.mem_toList_iff.mp hs)
    exact List.ne_nil_of_mem ht
  rw [linked, edgesOf, List.flatMap_assoc]
  generalize t.toList = rows at hrows
  induction rows with
  | nil => rfl
  | cons source rows ih =>
      obtain ⟨hsource, hrows⟩ := List.forall_mem_cons.mp hrows
      rw [List.flatMap_cons, List.flatMap_cons, List.findSome?_append, List.findSome?_append,
        ih hrows, ← findSome?_pairs p source.1 hsource, Ledger.keys, List.flatMap_map,
        List.flatMap_map]
      rfl

theorem findSome?_missing? (keys : List String) (e : MissingKey) :
    keys.findSome? (missing? table) = some e ↔ keys.find? (· ∉ table.keys) = some e.key := by
  induction keys with
  | nil => exact ⟨nofun, nofun⟩
  | cons key keys ih =>
      obtain ⟨k⟩ := e
      rw [List.findSome?_cons, List.find?_cons, missing?]
      by_cases hkey : key ∈ table.keys <;> simp [hkey, ih]

/-- A table lacks an end of some edge if there is a first one that it lacks. -/
theorem exists_find?_edgeEnds_iff {graph : ComponentGraph} :
    (∃ e : MissingKey, graph.edgeEnds.find? (· ∉ table.keys) = some e.key) ↔
      ∃ edge ∈ graph.edges, edge.source ∉ table.keys ∨ edge.target ∉ table.keys := by
  constructor
  · rintro ⟨e, he⟩
    have hkey : e.key ∉ table.keys := by simpa using List.find?_some he
    obtain ⟨edge, hedge, hend⟩ := List.mem_flatMap.mp (List.mem_of_find?_eq_some he)
    rcases List.mem_pair.mp hend with h | h
    · exact ⟨edge, hedge, .inl (h ▸ hkey)⟩
    · exact ⟨edge, hedge, .inr (h ▸ hkey)⟩
  · rintro ⟨edge, hedge, hmissing⟩
    have hend : ∃ key ∈ graph.edgeEnds, decide (key ∉ table.keys) = true := by
      rcases hmissing with h | h
      · exact ⟨_, List.mem_flatMap.mpr ⟨edge, hedge, by simp⟩, decide_eq_true h⟩
      · exact ⟨_, List.mem_flatMap.mpr ⟨edge, hedge, by simp⟩, decide_eq_true h⟩
    obtain ⟨key, hkey⟩ := Option.isSome_iff_exists.mp (List.find?_isSome.mpr hend)
    exact ⟨⟨key⟩, hkey⟩

/-- The graph of facts over a table fails at the first end of an edge of their own graph that the
table does not have. -/
theorem buildWith_eq_error_iff {f : Facts} {calls : CallGraph} {graph : ComponentGraph}
    (hedges : graph.edges = edgesOf clamp (Bundles.collect f calls).calls) (e : MissingKey) :
    buildWith f calls table clamp = .error e ↔
      graph.edgeEnds.find? (· ∉ table.keys) = some e.key := by
  have hlinked : (linked (Bundles.collect f calls).calls).findSome? (missing? table) =
      graph.edgeEnds.findSome? (missing? table) := by
    rw [edgeEnds, hedges, ← findSome?_linked]
    intro source targets h
    rw [Bundles.calls_collect] at h
    exact Bundles.exists_mem_keys_of_get? h
  rw [← findSome?_missing?, ← hlinked]
  exact bind_ok_eq_error_iff.trans (assemble_eq_error_iff (Bundles.collect f calls) (flowsOf f) e)

/-- **The lookup never fails on the table of the facts, and on any table it fails at the first end
of an edge that the table does not have.**  No other component is looked up: the ends of flows need
not be in the table. -/
theorem build_looks_up (f : Facts) (calls : CallGraph) (clamp : Bool) :
    ∃ graph events, build f calls clamp = .ok (graph, events) ∧ ∀ table : ComponentTable,
      ((∃ e, buildWith f calls table clamp = .error e) ↔
        ∃ edge ∈ graph.edges, edge.source ∉ table.keys ∨ edge.target ∉ table.keys) ∧
      (∀ e, buildWith f calls table clamp = .error e ↔
        graph.edgeEnds.find? (· ∉ table.keys) = some e.key) ∧
      ∀ table' : ComponentTable, (∀ key ∈ graph.edgeEnds, table.get? key = table'.get? key) →
        buildWith f calls table clamp = buildWith f calls table' clamp := by
  obtain ⟨graph, hbuild, -, hedges⟩ := exists_build f calls clamp
  refine ⟨graph, _, hbuild, fun table => ⟨?_, buildWith_eq_error_iff hedges, fun table' h => ?_⟩⟩
  · simp only [buildWith_eq_error_iff hedges, exists_find?_edgeEnds_iff]
  · rw [buildWith, buildWith, assemble_congr _ fun key hkey =>
      h key ((mem_edgeEnds_iff hedges).mpr hkey)]

/-- The components of a flow are drawn without a table. -/
example :
    let f := Facts.empty.putNew "F"
      { model := "M", function := "F",
        flows := [.ofText "sends" "mail" "web:app" "store:db" ""] }
    (buildWith f .empty .empty false).toOption.map (fun (graph, _) => graph.nodes.keys) =
      some ["web-app", "store-db"] := by
  decide +kernel

end ThreatModel.ComponentGraph
