import Mathlib.Data.List.Forall2
import Mathlib.Data.List.Nodup
import Mathlib.Data.List.TakeWhile
import ThreatModel.Diagram.Basic
import ThreatModel.Proofs.ComponentGraph.Names
import ThreatModel.Proofs.Diagram.Token
import ThreatModel.Proofs.Key

/-!
# Documents — a diagram, statement by statement

The text of a diagram is that of its statements (`source_eq_text`): clusters with the nodes that
are declared in them, and edges.

A key holds letters a–z, digits and one dash, so it stands for itself as a token, and as the end of
an edge it is written as where it is declared (`IsKeyText.endpoint_eq`).  The zones are gathered
from the nodes (`get?_clusters`), so each node is declared in one cluster, and that bears the first
part of its key.

* `build_depicted`: the statements of a diagram show the graph that is built of any parses, over
  any call graph.
-/

namespace ThreatModel.Diagram

open Dot (token endpoint StandsFor)

/-! ### Statements -/

/-- An attribute, with its value as it is written. -/
structure Attribute where
  name : String
  value : String
deriving DecidableEq, Repr

/-- The declaration of a node; it is written in a line of its own. -/
structure NodeStatement where
  id : String
  attributes : List Attribute
deriving DecidableEq, Repr

/-- A cluster and the nodes that are declared in it. -/
structure Subgraph where
  name : String
  attributes : List Attribute
  nodes : List NodeStatement
deriving DecidableEq, Repr

/-- An edge between two nodes. -/
structure EdgeStatement where
  tail : String
  head : String
  attributes : List Attribute
deriving DecidableEq, Repr

/-- A diagram behind its opening lines. -/
structure Document where
  opening : List String
  subgraphs : List Subgraph
  edges : List EdgeStatement
deriving DecidableEq, Repr

/-- Attributes as they are written, with blanks between them. -/
def Attribute.listText (as : List Attribute) : String :=
  String.intercalate " " (as.map fun a => a.name ++ "=" ++ a.value)

def NodeStatement.text (n : NodeStatement) : String :=
  "\t\t" ++ n.id ++ " [" ++ Attribute.listText n.attributes ++ "]\n"

def Subgraph.text (c : Subgraph) : String :=
  "\tsubgraph " ++ c.name ++ " \x7b\n" ++ ("\t\t" ++ Attribute.listText c.attributes ++ "\n") ++
    String.join (c.nodes.map NodeStatement.text) ++ "\t\x7d\n"

def EdgeStatement.text (e : EdgeStatement) : String :=
  "\t" ++ e.tail ++ " -> " ++ e.head ++ " [" ++ Attribute.listText e.attributes ++ "]\n"

namespace Document

def text (d : Document) : String :=
  String.join d.opening ++ String.join (d.subgraphs.map Subgraph.text) ++
    String.join (d.edges.map EdgeStatement.text) ++ "\x7d\n"

/-- The declarations: the name of a cluster, and the identifier of a node in it. -/
def declarations (d : Document) : List (String × String) :=
  d.subgraphs.flatMap fun c => c.nodes.map fun n => (c.name, n.id)

end Document

/-- The declaration of a node of a graph. -/
def nodeStatement (n : GraphNode) : NodeStatement where
  id := token n.key
  attributes := [⟨"label", token n.label⟩] ++
    ((Text.given? n.color).map fun color => ⟨"color", token color⟩).toList ++
    [⟨"shape", token n.shape⟩]

/-- The statement of a cluster. -/
def subgraph (key : String) (c : Cluster) : Subgraph where
  name := token ("cluster_" ++ key)
  attributes := [⟨"label", token c.zone⟩, ⟨"style", "dashed"⟩]
  nodes := c.nodes.map nodeStatement

/-- The statement of an edge. -/
def edgeStatement (source target : String) (label : Label) (color : String) : EdgeStatement where
  tail := endpoint source
  head := endpoint target
  attributes := [⟨"label", token (htmlLabel label)⟩, ⟨"color", token color⟩]

/-- The statements of a diagram. -/
def document (g : ComponentGraph) (s : DiagramSettings) : Document where
  opening := headLines s
  subgraphs := (clusters g).toList.map fun (key, c) => subgraph key c
  edges := g.edges.map (fun e => edgeStatement e.source e.target e.label e.color) ++
    g.flows.map fun x => edgeStatement x.source x.target [[⟨x.subject, x.color⟩]] x.color

/-! ### The text -/

theorem listText_pair (a b : Attribute) :
    Attribute.listText [a, b] = a.name ++ "=" ++ a.value ++ " " ++ (b.name ++ "=" ++ b.value) := rfl

theorem nodeLine_eq (n : GraphNode) : nodeLine n = (nodeStatement n).text := by
  rw [nodeLine, NodeStatement.text, nodeStatement, Attribute.listText]
  cases Text.given? n.color <;> rfl

theorem join_clusterLines (key : String) (c : Cluster) :
    String.join (clusterLines key c) = (subgraph key c).text := by
  have hnodes : c.nodes.map nodeLine = (subgraph key c).nodes.map NodeStatement.text := by
    rw [subgraph, List.map_map]
    exact List.map_congr_left fun n _ => nodeLine_eq n
  rw [clusterLines, hnodes, Subgraph.text]
  simp [subgraph, listText_pair, assign, String.append_assoc]

theorem edgeLine_eq (source target : String) (label : Label) (color : String) :
    edgeLine source target label color = (edgeStatement source target label color).text := by
  simp [edgeLine, EdgeStatement.text, edgeStatement, listText_pair, assign, String.append_assoc]

theorem join_flatMap {α : Type} (f : α → List String) (as : List α) :
    String.join (as.flatMap f) = String.join (as.map fun a => String.join (f a)) := by
  induction as with
  | nil => rfl
  | cons a as ih =>
      rw [List.flatMap_cons, String.join_append, ih, List.map_cons, String.join_cons]

/-- **The text of a diagram is that of its statements.** -/
theorem source_eq_text (g : ComponentGraph) (s : DiagramSettings) :
    source g s = (document g s).text := by
  simp only [source, lines, Document.text, document, String.join_append, join_flatMap,
    join_clusterLines, edgeLine_eq, List.map_append, List.map_map, String.append_assoc]
  rfl

/-! ### Keys as tokens -/

/-- A text of letters a–z, digits and dashes. -/
def IsKeyText (s : String) : Prop := ∀ c ∈ s.toList, isKeyChar c = true ∨ c = '-'

theorem isKeyText_key (p : Place) : IsKeyText p.key := by
  intro c hc
  rw [Place.key, String.toList_append, String.toList_append, List.mem_append, List.mem_append] at hc
  rcases hc with (hc | hc) | hc
  · exact .inl (keyOf_chars hc)
  · exact .inr (List.mem_singleton.mp hc)
  · exact .inl (keyOf_chars hc)

namespace IsKeyText

variable {s : String}

theorem not_mem (h : IsKeyText s) {c : Char} (hc : isKeyChar c = false ∧ c ≠ '-') :
    c ∉ s.toList := fun hmem =>
  (h c hmem).elim (fun hkey => Bool.false_ne_true (hc.1.symm.trans hkey)) hc.2

/-- It stands for itself. -/
theorem standsFor_token (h : IsKeyText s) : StandsFor (token s) s :=
  Dot.standsFor_token (h.not_mem (by decide)) (h.not_mem (by decide)) (h.not_mem (by decide))
    (h.not_mem (by decide))

/-- As the end of an edge it names no port. -/
theorem endpoint_eq (h : IsKeyText s) : endpoint s = token s := by
  have hcolon : ∀ c ∈ s.toList, decide (c ≠ ':') = true := fun c hc =>
    decide_eq_true fun e => h.not_mem (by decide) (e ▸ hc)
  have hcut : Dot.cutAtColon s = (s, "") := by
    rw [Dot.cutAtColon, List.takeWhile_eq_self_iff.mpr hcolon, List.dropWhile_eq_nil_iff.mpr hcolon,
      String.ofList_toList]
    rfl
  rw [endpoint, hcut]
  rfl

end IsKeyText

/-- The part of a key in front of the dash. -/
def zonePart (key : String) : String := String.ofList (key.toList.takeWhile (· ≠ '-'))

theorem zonePart_key (p : Place) : zonePart p.key = keyOf p.zone := by
  have hzone : ∀ c ∈ (keyOf p.zone).toList, decide (c ≠ '-') = true := fun c hc =>
    decide_eq_true fun e => absurd (keyOf_chars hc) (e ▸ by decide)
  rw [zonePart, Place.key, String.toList_append, String.toList_append, List.append_assoc,
    List.takeWhile_append_of_pos hzone, ← String.toList_inj]
  simp

/-! ### Names of clusters -/

theorem isNameChar_of_isKeyChar {c : Char} (h : isKeyChar c = true) : Dot.isNameChar c = true := by
  change (c.isUpper || c.isLower || c.isDigit || c == '_') = true
  rcases isKeyChar_iff.mp h with hletter | hdigit
  · have hlower : c.isLower = true :=
      Bool.and_eq_true_iff.mpr ⟨decide_eq_true hletter.1, decide_eq_true hletter.2⟩
    rw [hlower, Bool.or_true, Bool.true_or, Bool.true_or]
  · have hdigit : c.isDigit = true :=
      Bool.and_eq_true_iff.mpr ⟨decide_eq_true hdigit.1, decide_eq_true hdigit.2⟩
    rw [hdigit, Bool.or_true, Bool.true_or]

theorem isKeyword_of_head? {s : List Char} (hascii : ∀ c ∈ s, c.toNat < 0x80)
    (h : ∀ k ∈ Dot.keywords, k.toList.head? ≠ s.head?.map Char.toLower) :
    Dot.isKeyword s = false := by
  rw [Dot.isKeyword, List.any_eq_false]
  intro k hk heq
  refine h k hk ?_
  rw [of_decide_eq_true heq, Text.lower_ascii hascii, List.head?_map]

theorem of_mem_cluster {zone : String} {c : Char} (h : c ∈ ("cluster_" ++ keyOf zone).toList) :
    Dot.isNameChar c = true ∧ c.toNat < 0x80 := by
  rw [String.toList_append, List.mem_append] at h
  rcases h with h | h
  · have hall : "cluster_".toList.all (fun c => Dot.isNameChar c && decide (c.toNat < 0x80)) := by
      decide
    simpa using List.all_eq_true.mp hall c h
  · exact ⟨isNameChar_of_isKeyChar (keyOf_chars h), ascii_of_isKeyChar (keyOf_chars h)⟩

theorem not_mem_cluster {zone : String} {c : Char} (h : Dot.isNameChar c = false) :
    c ∉ ("cluster_" ++ keyOf zone).toList := fun hmem =>
  Bool.false_ne_true (h.symm.trans (of_mem_cluster hmem).1)

/-- The name of a cluster is a name, and no keyword. -/
theorem isBare_cluster (zone : String) : Dot.isBare ("cluster_" ++ keyOf zone).toList = true := by
  have hcons : ("cluster_" ++ keyOf zone).toList =
      'c' :: ("luster_".toList ++ (keyOf zone).toList) := by
    rw [String.toList_append]
    rfl
  have hname : Dot.isName ("cluster_" ++ keyOf zone).toList = true := by
    rw [hcons]
    refine Bool.and_eq_true_iff.mpr ⟨rfl, List.all_eq_true.mpr fun c hc => ?_⟩
    have hmem : c ∈ ("cluster_" ++ keyOf zone).toList := by
      rw [hcons]
      exact List.mem_cons_of_mem _ hc
    exact (of_mem_cluster hmem).1
  have hkeyword : Dot.isKeyword ("cluster_" ++ keyOf zone).toList = false := by
    refine isKeyword_of_head? (fun c hc => (of_mem_cluster hc).2) ?_
    rw [hcons]
    show ∀ k ∈ Dot.keywords, k.toList.head? ≠ some 'c'
    decide
  rw [Dot.isBare, Dot.withoutNewline_of_not_mem (not_mem_cluster rfl), hname, hkeyword]
  rfl

/-- The name of a cluster needs no quotes. -/
theorem token_cluster (zone : String) :
    token ("cluster_" ++ keyOf zone) = "cluster_" ++ keyOf zone :=
  Dot.token_of_isBare (isBare_cluster zone)

/-- It stands for itself. -/
theorem standsFor_cluster (zone : String) :
    StandsFor ("cluster_" ++ keyOf zone) ("cluster_" ++ keyOf zone) := by
  have hstands : StandsFor (token ("cluster_" ++ keyOf zone)) ("cluster_" ++ keyOf zone) :=
    Dot.standsFor_token (not_mem_cluster rfl) (not_mem_cluster rfl) (not_mem_cluster rfl)
      (not_mem_cluster rfl)
  rwa [token_cluster] at hstands

/-! ### Clusters -/

/-- Adds a node to a cluster. -/
def Cluster.add (c : Cluster) (n : GraphNode) : Cluster := { c with nodes := c.nodes ++ [n] }

theorem Cluster.foldl_add (ns : List GraphNode) (c : Cluster) :
    ns.foldl add c = ⟨c.zone, c.nodes ++ ns⟩ := by
  induction ns generalizing c with
  | nil => rw [List.append_nil, List.foldl_nil]
  | cons n ns ih => rw [List.foldl_cons, ih, add, List.append_assoc, List.singleton_append]

/-- The clusters are the nodes, gathered by the keys of their zones. -/
theorem clusters_eq_gather (g : ComponentGraph) :
    clusters g = Ledger.gather (fun n => keyOf n.zone) (fun n => ⟨n.zone, []⟩) Cluster.add
      g.nodes.values := rfl

theorem keys_clusters (g : ComponentGraph) :
    (clusters g).keys = distinct (g.nodes.values.map fun n => keyOf n.zone) := by
  rw [clusters_eq_gather, Ledger.keys_gather]

/-- A cluster has the nodes of its zones in order, and the name of the first zone. -/
theorem get?_clusters (g : ComponentGraph) (key : String) :
    (clusters g).get? key = (g.nodes.values.find? fun n => keyOf n.zone = key).map fun first =>
      ⟨first.zone, g.nodes.values.filter fun n => keyOf n.zone = key⟩ := by
  rw [clusters_eq_gather, Ledger.get?_gather, List.head?_filter]
  simp only [Cluster.foldl_add, List.nil_append]

/-! ### The whole diagram -/

/-- The cluster shows the zones of a key. -/
structure DepictsZone (g : ComponentGraph) (key : String) (c : Subgraph) : Prop where
  name : c.name = "cluster_" ++ key
  name_standsFor : StandsFor c.name ("cluster_" ++ key)
  /-- The label is the spelling that comes first. -/
  attributes : ∃ first, (g.nodes.values.find? fun n => keyOf n.zone = key) = some first ∧
    c.attributes = [⟨"label", token first.zone⟩, ⟨"style", "dashed"⟩]
  nodes : c.nodes = (g.nodes.values.filter fun n => keyOf n.zone = key).map nodeStatement

/-- The statements show the graph. -/
structure Depicts (g : ComponentGraph) (d : Document) : Prop where
  /-- There is one cluster for each key of a zone, in the order of the first nodes. -/
  subgraphs : List.Forall₂ (DepictsZone g) (distinct (g.nodes.values.map fun n => keyOf n.zone))
    d.subgraphs
  /-- A node is declared in the cluster that its key names. -/
  declarations : d.declarations.Perm
    (g.nodes.keys.map fun key => ("cluster_" ++ zonePart key, token key))
  /-- No node is declared twice. -/
  nodup : (d.declarations.map Prod.snd).Nodup
  /-- What is declared is read as the key of the node. -/
  standsFor : ∀ key ∈ g.nodes.keys, StandsFor (token key) key
  /-- The edges come in order, and the flows behind them, written as edges between tokens. -/
  edges : d.edges =
    g.edges.map (fun e => ⟨token e.source, token e.target,
      [⟨"label", token (htmlLabel e.label)⟩, ⟨"color", token e.color⟩]⟩) ++
    g.flows.map fun x => ⟨token x.source, token x.target,
      [⟨"label", token (htmlLabel [[⟨x.subject, x.color⟩]])⟩, ⟨"color", token x.color⟩]⟩
  /-- The ends of edges are declared. -/
  ends : ∀ e ∈ d.edges,
    e.tail ∈ d.declarations.map Prod.snd ∧ e.head ∈ d.declarations.map Prod.snd

/-- The statement of an edge between keys. -/
theorem edgeStatement_eq {source target : String} (hs : IsKeyText source) (ht : IsKeyText target)
    (label : Label) (color : String) : edgeStatement source target label color =
      ⟨token source, token target,
        [⟨"label", token (htmlLabel label)⟩, ⟨"color", token color⟩]⟩ := by
  rw [edgeStatement, hs.endpoint_eq, ht.endpoint_eq]

section
variable {f : Facts} {g : ComponentGraph} (h : ComponentGraph.WellFormed f g)
  (s : DiagramSettings)
include h

theorem isKeyText_of_mem_keys {key : String} (hkey : key ∈ g.nodes.keys) : IsKeyText key := by
  obtain ⟨n, hn⟩ := Ledger.mem_keys_iff.mp hkey
  rw [← (h.key key n hn).2]
  exact isKeyText_key _

theorem zonePart_of_mem_values {n : GraphNode} (hn : n ∈ g.nodes.values) :
    zonePart n.key = keyOf n.zone := by
  obtain ⟨⟨key, n⟩, hmem, rfl⟩ := List.mem_map.mp hn
  obtain ⟨rfl, hkey⟩ := h.key key n (Ledger.mem_toList_iff.mp hmem)
  rw [← hkey, zonePart_key]

theorem map_key_values : g.nodes.values.map GraphNode.key = g.nodes.keys := by
  rw [Ledger.values, List.map_map, Ledger.keys]
  exact List.map_congr_left fun e he => (h.key e.1 e.2 (Ledger.mem_toList_iff.mp he)).1

theorem mem_keys_of_mem_edges {e : ThreatEdge} (he : e ∈ g.edges) :
    e.source ∈ g.nodes.keys ∧ e.target ∈ g.nodes.keys :=
  ⟨h.edge_ends _ (List.mem_flatMap.mpr ⟨e, he, by simp⟩),
    h.edge_ends _ (List.mem_flatMap.mpr ⟨e, he, by simp⟩)⟩

theorem mem_keys_of_mem_flows {x : FlowEdge} (hx : x ∈ g.flows) :
    x.source ∈ g.nodes.keys ∧ x.target ∈ g.nodes.keys :=
  ⟨h.flow_ends _ (List.mem_flatMap.mpr ⟨x, hx, by simp⟩),
    h.flow_ends _ (List.mem_flatMap.mpr ⟨x, hx, by simp⟩)⟩

theorem edges_document : (document g s).edges =
    g.edges.map (fun e => ⟨token e.source, token e.target,
      [⟨"label", token (htmlLabel e.label)⟩, ⟨"color", token e.color⟩]⟩) ++
    g.flows.map fun x => ⟨token x.source, token x.target,
      [⟨"label", token (htmlLabel [[⟨x.subject, x.color⟩]])⟩, ⟨"color", token x.color⟩]⟩ := by
  have hkey : ∀ {key}, key ∈ g.nodes.keys → IsKeyText key := isKeyText_of_mem_keys h
  refine congrArg₂ (· ++ ·) (List.map_congr_left fun e he => ?_)
    (List.map_congr_left fun x hx => ?_)
  · obtain ⟨hs, ht⟩ := mem_keys_of_mem_edges h he
    exact edgeStatement_eq (hkey hs) (hkey ht) _ _
  · obtain ⟨hs, ht⟩ := mem_keys_of_mem_flows h hx
    exact edgeStatement_eq (hkey hs) (hkey ht) _ _

omit h in
theorem depictsZone_subgraph {key : String} {c : Cluster} (hc : (key, c) ∈ (clusters g).toList) :
    DepictsZone g key (subgraph key c) := by
  have hget := Ledger.mem_toList_iff.mp hc
  have hkey : key ∈ (clusters g).keys := Ledger.mem_keys_iff.mpr ⟨c, hget⟩
  rw [keys_clusters, mem_distinct_iff] at hkey
  obtain ⟨n, -, rfl⟩ := List.mem_map.mp hkey
  rw [get?_clusters, Option.map_eq_some_iff] at hget
  obtain ⟨first, hfirst, rfl⟩ := hget
  refine ⟨?_, ?_, ⟨first, hfirst, rfl⟩, rfl⟩
  · rw [subgraph, token_cluster]
  · rw [subgraph, token_cluster]
    exact standsFor_cluster n.zone

omit h in
theorem depictsZones : List.Forall₂ (DepictsZone g)
    (distinct (g.nodes.values.map fun n => keyOf n.zone)) (document g s).subgraphs := by
  rw [← keys_clusters, Ledger.keys, document, List.forall₂_map_left_iff, List.forall₂_map_right_iff,
    List.forall₂_same]
  exact fun e he => depictsZone_subgraph he

omit h in
/-- The declarations in clusters that show zones. -/
theorem flatMap_declarations {keys : List String} {cs : List Subgraph}
    (hcs : List.Forall₂ (DepictsZone g) keys cs) :
    (cs.flatMap fun c => c.nodes.map fun n => (c.name, n.id)) =
      (keys.flatMap fun key => g.nodes.values.filter fun n => keyOf n.zone = key).map fun n =>
        ("cluster_" ++ keyOf n.zone, token n.key) := by
  induction hcs with
  | nil => rfl
  | cons hc _ ih =>
      rw [List.flatMap_cons, List.flatMap_cons, List.map_append, ih, hc.nodes, hc.name,
        List.map_map]
      refine congrArg (· ++ _) (List.map_congr_left fun n hn => ?_)
      rw [← of_decide_eq_true (List.mem_filter.mp hn).2]
      rfl

theorem declarations_perm : (document g s).declarations.Perm
    (g.nodes.keys.map fun key => ("cluster_" ++ zonePart key, token key)) := by
  have hkeys : g.nodes.keys.map (fun key => ("cluster_" ++ zonePart key, token key)) =
      g.nodes.values.map fun n => ("cluster_" ++ keyOf n.zone, token n.key) := by
    rw [← map_key_values h, List.map_map]
    refine List.map_congr_left fun n hn => ?_
    rw [Function.comp_apply, zonePart_of_mem_values h hn]
  rw [Document.declarations, flatMap_declarations (depictsZones s), hkeys]
  exact (flatMap_distinct_perm (fun n : GraphNode => keyOf n.zone) g.nodes.values).map _

/-- The identifiers are the tokens of the keys. -/
theorem map_snd_declarations_perm :
    ((document g s).declarations.map Prod.snd).Perm (g.nodes.keys.map token) := by
  have hids := (declarations_perm h s).map Prod.snd
  rwa [List.map_map] at hids

theorem mem_declarations {key : String} (hkey : key ∈ g.nodes.keys) :
    token key ∈ (document g s).declarations.map Prod.snd :=
  (map_snd_declarations_perm h s).mem_iff.mpr (List.mem_map_of_mem hkey)

theorem depicts_document : Depicts g (document g s) where
  subgraphs := depictsZones s
  declarations := declarations_perm h s
  nodup := by
    refine (map_snd_declarations_perm h s).nodup_iff.mpr (g.nodes.nodup_keys.map_on ?_)
    intro key hkey key' hkey' htoken
    have hstands := (isKeyText_of_mem_keys h hkey).standsFor_token
    exact Dot.eq_of_standsFor hstands
      (htoken ▸ (isKeyText_of_mem_keys h hkey').standsFor_token)
  standsFor _ hkey := (isKeyText_of_mem_keys h hkey).standsFor_token
  edges := edges_document h s
  ends statement hmem := by
    rw [edges_document h s, List.mem_append] at hmem
    rcases hmem with hmem | hmem
    · obtain ⟨e, he, rfl⟩ := List.mem_map.mp hmem
      obtain ⟨hs, ht⟩ := mem_keys_of_mem_edges h he
      exact ⟨mem_declarations h s hs, mem_declarations h s ht⟩
    · obtain ⟨x, hx, rfl⟩ := List.mem_map.mp hmem
      obtain ⟨hs, ht⟩ := mem_keys_of_mem_flows h hx
      exact ⟨mem_declarations h s hs, mem_declarations h s ht⟩

end

/-- **The diagram shows the graph** that is built of any parses, over any call graph: the clusters
are the zones, each node is declared once, in the cluster of its zone, and the edges join declared
nodes. -/
theorem build_depicted (ps : List Annotations.Parse) (calls : CallGraph) (clamp : Bool)
    (s : DiagramSettings) :
    ∃ graph events,
      ComponentGraph.build (Annotations.parseAll .empty ps) calls clamp = .ok (graph, events) ∧
        source graph s = (document graph s).text ∧ Depicts graph (document graph s) := by
  obtain ⟨graph, hbuild, hg, hedges⟩ :=
    ComponentGraph.exists_build (Annotations.parseAll .empty ps) calls clamp
  have hformed := ComponentGraph.wellFormed_of_assemble hg hedges
    (Annotations.directed_parseAll Facts.directed_empty ps)
  exact ⟨graph, _, hbuild, source_eq_text graph s, depicts_document hformed s⟩

end ThreatModel.Diagram
