import ThreatModel.Proofs.Diagram.Document

/-!
# Labels — when a label shows the name of its component

Clusters and nodes are labelled with the names of zones and components, which are free texts of
their lines.  A name is written as a token and not escaped before, as the texts of edges are.  So
its label is one whole identifier iff the name is not enclosed in brackets and does not end in an
odd number of backslashes, and it stands for the name iff, moreover, no quote in the name stands
behind an odd number of backslashes (`build_labels`).

In `labels_broken` one component is labelled with an HTML-like text, another with a string that is
not closed, and a third with a string that stands for another text.
-/

namespace ThreatModel.Diagram

open Dot (token IsComplete IsEnclosed StandsFor trailing)

/-- The value of the label, as it is written. -/
def labelOf (as : List Attribute) : Option String :=
  (as.find? (·.name = "label")).map Attribute.value

/-- The label is written for the name, and this is when it can be read. -/
structure IsLabelled (as : List Attribute) (name : String) : Prop where
  written : labelOf as = some (token name)
  /-- A name in brackets is written as it is, like an HTML-like text. -/
  enclosed : IsEnclosed name.toList → token name = name
  complete_iff : IsComplete (token name) ↔
    ¬ IsEnclosed name.toList ∧ trailing name.toList % 2 = 0
  standsFor_iff : StandsFor (token name) name ↔
    ¬ IsEnclosed name.toList ∧ trailing name.toList % 2 = 0 ∧
      ∀ a b, name.toList = a ++ '"' :: b → trailing a % 2 = 0

theorem isLabelled_of_not_mem {as : List Attribute} {name : String} (hn : '\n' ∉ name.toList)
    (h : labelOf as = some (token name)) : IsLabelled as name where
  written := h
  enclosed := Dot.token_of_isEnclosed
  complete_iff := Dot.isComplete_token_iff hn
  standsFor_iff := by rw [Dot.standsFor_token_iff hn, Dot.isComplete_token_iff hn, and_assoc]

/-- **The labels of clusters and nodes** are written for the names of zones and components.  They
can be read as such iff the names are not enclosed in brackets and have backslashes in even numbers
at their ends and in front of their quotes. -/
theorem build_labels (ps : List Annotations.Parse) (calls : CallGraph) (clamp : Bool)
    (s : DiagramSettings) :
    ∃ graph events,
      ComponentGraph.build (Annotations.parseAll .empty ps) calls clamp = .ok (graph, events) ∧
        ∀ c ∈ (document graph s).subgraphs,
          (∃ node ∈ graph.nodes.values, c.name = "cluster_" ++ keyOf node.zone ∧
            IsLabelled c.attributes node.zone) ∧
          ∀ n ∈ c.nodes, ∃ node ∈ graph.nodes.values, n.id = token node.key ∧
            IsLabelled n.attributes node.label := by
  obtain ⟨graph, hbuild, hg, -⟩ :=
    ComponentGraph.exists_build (Annotations.parseAll .empty ps) calls clamp
  have honeLine : ∀ node ∈ graph.nodes.values, Place.OneLine ⟨node.zone, node.label⟩ :=
    fun _ => ComponentGraph.oneLine_of_mem_values hg
  refine ⟨graph, _, hbuild, fun c hc => ?_⟩
  obtain ⟨⟨key, c⟩, hmem, rfl⟩ := List.mem_map.mp hc
  have hzone := depictsZone_subgraph hmem
  constructor
  · obtain ⟨first, hfirst, hattributes⟩ := hzone.attributes
    have hnode := List.mem_of_find?_eq_some hfirst
    have hkey : keyOf first.zone = key := by simpa using List.find?_some hfirst
    exact ⟨first, hnode, by rw [hkey, hzone.name],
      isLabelled_of_not_mem (honeLine first hnode).zone (by rw [hattributes]; rfl)⟩
  · intro n hn
    rw [hzone.nodes] at hn
    obtain ⟨node, hnode, rfl⟩ := List.mem_map.mp hn
    have hnode := List.mem_of_mem_filter hnode
    exact ⟨node, hnode, rfl, isLabelled_of_not_mem (honeLine node hnode).component rfl⟩

/-- **Names break their labels.**  The first label is an HTML-like text and shows no brackets, the
second is a string without an end, and the third stands for another text. -/
theorem labels_broken :
    let text := "// ThreatSpec m for F\n// Sends logs from <client> to disk:C\\\n" ++
      "// Sends keys from web:a\\\"b to disk:C\\\n"
    let facts := Annotations.parseAll .empty [⟨true, "a.go", text⟩]
    ((ComponentGraph.build facts .empty false).toOption.map fun (graph, _) =>
      (document graph {}).subgraphs.map fun c =>
        (labelOf c.attributes, c.nodes.map fun n => labelOf n.attributes)) =
      some [(some "<client>", [some "<client>"]), (some "disk", [some "\"C\\\""]),
        (some "web", [some "\"a\\\"b\""])] ∧
    ¬ IsComplete "<client>" ∧ ¬ IsComplete "\"C\\\"" ∧ ¬ StandsFor "\"a\\\"b\"" "a\\\"b" := by
  have hclient : Dot.read "<client>".toList = some (.html "client".toList, []) := by decide +kernel
  have hdisk : Dot.read "\"C\\\"".toList = none := by decide +kernel
  have hweb : Dot.read "\"a\\\"b\"".toList = some (.id "a\"b".toList, []) := by decide +kernel
  refine ⟨by decide +kernel, ?_, ?_, fun h => ?_⟩
  · rintro ⟨name, h⟩
    cases hclient.symm.trans h.read_eq
  · rintro ⟨name, h⟩
    cases hdisk.symm.trans h.read_eq
  · exact absurd (hweb.symm.trans h.read_eq) (by decide +kernel)

end ThreatModel.Diagram
