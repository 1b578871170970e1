import ThreatModel.Proofs.ComponentGraph.Nodes

/-!
# Names — nodes bear names that stand on one line

A field holds characters of its line only (`Pattern.mem_of_mem_get`), and no line of a text has a
newline in it.  So zone and component of each place that a record names are written on one line
(`isKept_oneLine`), and those are the zones and labels of the nodes (`oneLine_of_mem_values`).
-/

namespace ThreatModel

open ComponentGraph (endsOf)

/-- Zone and component are written on one line. -/
structure Place.OneLine (p : Place) : Prop where
  zone : '\n' ∉ p.zone.toList
  component : '\n' ∉ p.component.toList

theorem Place.oneLine_ofText {text : String} (h : '\n' ∉ text.toList) :
    (ofText text).OneLine := by
  rw [ofText]
  split
  · rename_i m hm
    exact ⟨fun hn => h (Pattern.mem_of_mem_get hm hn), fun hn => h (Pattern.mem_of_mem_get hm hn)⟩
  · exact ⟨h, h⟩

/-- The places that a record names: those that its findings are about, and the ends of its flows. -/
def FunctionRecord.named (r : FunctionRecord) : List Place := r.places ++ endsOf r.flows

namespace Annotations

/-! ### Places in sources -/

/-- The places that a statement names. -/
def Statement.named : Statement → List Place
  | mitigation f => [f.place]
  | exposure f   => [f.place]
  | capability c => [c.place]
  | flow x       => [x.source, x.target]
  | _            => []

/-- A place is named by a field. -/
theorem Form.exists_part_of_mem_named {f : Form} {line : String} {m : Pattern.Match Part}
    {p : Place} (hp : p ∈ (f.statement line m).named) : ∃ part, p = .ofText (m.get part) := by
  cases f with
  | mitigation => exact ⟨_, List.mem_singleton.mp hp⟩
  | exposure => exact ⟨_, List.mem_singleton.mp hp⟩
  | capability => exact ⟨_, List.mem_singleton.mp hp⟩
  | flow =>
      rcases List.mem_cons.mp hp with hp | hp
      · exact ⟨_, hp⟩
      · exact ⟨_, List.mem_singleton.mp hp⟩
  | _ => cases hp

theorem Statement.oneLine_of_mem_named {line : String} {l : Language} {inBlock : Bool}
    {st : Statement} (hn : '\n' ∉ line.toList) (h : statement? rules l inBlock line = some st)
    {p : Place} (hp : p ∈ st.named) : p.OneLine := by
  obtain ⟨rule, -, hread⟩ := exists_read_of_statement? h
  cases rule with
  | form f =>
      obtain ⟨m, hm, rfl⟩ := Option.map_eq_some_iff.mp hread
      obtain ⟨part, rfl⟩ := Form.exists_part_of_mem_named hp
      exact Place.oneLine_ofText fun hmem => hn (Pattern.mem_of_mem_get hm hmem)
  | definition =>
      obtain ⟨m, -, rfl⟩ := Option.map_eq_some_iff.mp hread
      cases hp

/-- A statement adds to a record the places that it names. -/
theorem Statement.mem_named_addTo {file : String} {number : Int} {st : Statement}
    {r : FunctionRecord} {p : Place} (h : p ∈ (st.addTo file number r).named) :
    p ∈ r.named ∨ p ∈ st.named := by
  cases st with
  | definition f c =>
      rw [addTo] at h
      split at h <;> exact .inl h
  | _ =>
      simp only [addTo, FunctionRecord.named, FunctionRecord.places, endsOf, Statement.named,
        List.map_append, List.flatMap_append, List.mem_append, List.map_cons, List.map_nil,
        List.flatMap_cons, List.flatMap_nil, List.append_nil] at h ⊢
      tauto

/-- All records name places on one line. -/
theorem isKept_oneLine : IsKept fun r => ∀ p ∈ r.named, p.OneLine where
  opened _ _ hp := nomatch hp
  addTo hn hst h p hp :=
    (Statement.mem_named_addTo hp).elim (h p) (Statement.oneLine_of_mem_named hn hst)

/-- **The places are on one line that the functions of any parses name.** -/
theorem oneLine_parseAll (ps : List Parse) {key : String} {r : FunctionRecord}
    (hr : (key, r) ∈ (parseAll .empty ps).functions) : ∀ p ∈ r.named, p.OneLine :=
  isKept_oneLine.of_mem_functions (isKept_oneLine.parseAll (fun _ h => absurd h List.not_mem_nil) ps) hr

end Annotations

namespace ComponentGraph

/-! ### Nodes -/

/-- A node bears the names of a place that a function of the table names. -/
theorem exists_named_of_get? {f : Facts} {calls : CallGraph} {clamp : Bool}
    {graph : ComponentGraph} {key : String} {node : GraphNode}
    (hg : assemble (Bundles.collect f calls) (ComponentTable.analyze f) (flowsOf f) clamp =
      .ok graph)
    (hnode : graph.nodes.get? key = some node) :
    ∃ e ∈ f.functions, ⟨node.zone, node.label⟩ ∈ e.2.named := by
  rw [get?_nodes_assemble hg, Option.or_eq_some_iff] at hnode
  rcases hnode with hbox | ⟨-, hoval⟩
  · obtain ⟨-, hbox⟩ := Option.ite_none_right_eq_some.mp hbox
    obtain ⟨c, hc, rfl⟩ := Option.map_eq_some_iff.mp hbox
    have hplace := List.mem_of_find?_eq_some (Component.gathers_of_get? hc).first
    obtain ⟨e, he, hplace⟩ := List.mem_flatMap.mp hplace
    exact ⟨e, he, List.mem_append_left _ hplace⟩
  · obtain ⟨p, hp, rfl⟩ := Option.map_eq_some_iff.mp hoval
    obtain ⟨x, hx, hp⟩ := List.mem_flatMap.mp (List.mem_of_find?_eq_some hp)
    obtain ⟨e, he, hx⟩ := List.mem_flatMap.mp hx
    exact ⟨e, he, List.mem_append_right _ (List.mem_flatMap.mpr ⟨x, hx, hp⟩)⟩

/-- **Zone and label of a node are on one line.** -/
theorem oneLine_of_mem_values {ps : List Annotations.Parse} {calls : CallGraph} {clamp : Bool}
    {graph : ComponentGraph} {node : GraphNode}
    (hg : assemble (Bundles.collect (Annotations.parseAll .empty ps) calls)
      (ComponentTable.analyze (Annotations.parseAll .empty ps))
      (flowsOf (Annotations.parseAll .empty ps)) clamp = .ok graph)
    (hnode : node ∈ graph.nodes.values) : Place.OneLine ⟨node.zone, node.label⟩ := by
  obtain ⟨⟨key, node⟩, hmem, rfl⟩ := List.mem_map.mp hnode
  obtain ⟨⟨function, r⟩, hr, hp⟩ := exists_named_of_get? hg (Ledger.mem_toList_iff.mp hmem)
  exact Annotations.oneLine_parseAll ps hr _ hp

end ComponentGraph

end ThreatModel
