import Mathlib.Logic.Relation
import ThreatModel.Diagram.Basic
import ThreatModel.Proofs.CallGraph.Repetition
import ThreatModel.Proofs.ComponentGraph.Edges

/-!
# Resolvable calls — nothing else of a call graph matters

Of a call graph only the callers that have records are looked at, and of their callees only those
that have records; where the calls stand is never looked at.  So a call graph can be trimmed
(`CallGraph.Trims`): callers and callees without records can be left out, callees that their caller
declares need not be observed, and sites can be replaced.

What is left of a caller's callees are those that can be resolved (`resolved`), the declared ones
first and each once, and no trimming changes them (`SameCalls.of_trims`).  The bundles are collected
from these alone (`SameCalls.collect_eq`).

* `build_resolvable`: the graph of a trimmed call graph is the same, and so is the diagram of a call
  graph in which lines come again.
-/

namespace ThreatModel

/-- One change to a call graph that leaves out what cannot be resolved or is declared anyway, or
that replaces sites. -/
inductive CallGraph.Trims (f : Facts) (g : CallGraph) : CallGraph → Prop where
  /-- A caller without a record is left out. -/
  | caller {caller : String} (h : f.function? caller = none) : Trims f g (g.erase caller)
  /-- A callee without a record is left out; its caller stays, even without callees. -/
  | callee {caller callee : String} {row : Ledger String (List CallSite)}
      (hrow : g.get? caller = some row) (h : f.function? callee = none) :
      Trims f g (g.insert caller (row.erase callee))
  /-- A callee that its caller declares is left out. -/
  | declared {caller callee : String} {row : Ledger String (List CallSite)} {r : FunctionRecord}
      (hrow : g.get? caller = some row) (hr : f.function? caller = some r)
      (h : callee ∈ r.calls.map DeclaredCall.callee) :
      Trims f g (g.insert caller (row.erase callee))
  /-- The sites of a call are replaced. -/
  | sites {caller callee : String} {row : Ledger String (List CallSite)} {old : List CallSite}
      (hrow : g.get? caller = some row) (h : row.get? callee = some old) (new : List CallSite) :
      Trims f g (g.insert caller (row.insert callee new))

/-! ### Callees that can be resolved -/

/-- The effective callees of a record that have records. -/
def resolved (f : Facts) (r : FunctionRecord) (observed : List String) : List String :=
  (effectiveCallees r observed).filter fun key => (f.function? key).isSome

section
variable {f : Facts} {r : FunctionRecord} {observed : List String} {key : String}

theorem resolved_eq (f : Facts) (r : FunctionRecord) (observed : List String) :
    resolved f r observed =
      distinct ((r.calls.map DeclaredCall.callee ++ observed).filter
        fun key => (f.function? key).isSome) :=
  filter_distinct ..

/-- An observed callee without a record can be left out. -/
theorem resolved_filter_of_none (h : f.function? key = none) :
    resolved f r (observed.filter (· ≠ key)) = resolved f r observed := by
  rw [resolved_eq, resolved_eq, List.filter_append, List.filter_append, List.filter_filter]
  refine congrArg (fun keys => distinct (_ ++ keys)) (List.filter_congr fun k _ => ?_)
  by_cases hk : k = key
  · simp [hk, h]
  · simp [hk]

/-- A declared callee need not be observed. -/
theorem resolved_filter_of_declared (h : key ∈ r.calls.map DeclaredCall.callee) :
    resolved f r (observed.filter (· ≠ key)) = resolved f r observed := by
  rw [resolved, effectiveCallees, distinct_append_filter_ne h, resolved, effectiveCallees]

end

namespace Facts

/-- Each function of the table is a caller in both call graphs or in none, and of its callees the
same can be resolved, in the same order. -/
def SameCalls (f : Facts) (g g' : CallGraph) : Prop :=
  ∀ caller r, f.function? caller = some r →
    (g.get? caller).map (fun row => resolved f r row.keys) =
      (g'.get? caller).map fun row => resolved f r row.keys

namespace SameCalls

variable {f : Facts} {g g' : CallGraph}

theorem refl (f : Facts) (g : CallGraph) : f.SameCalls g g := fun _ _ _ => rfl

theorem trans {g'' : CallGraph} (h : f.SameCalls g g') (h' : f.SameCalls g' g'') :
    f.SameCalls g g'' :=
  fun caller r hr => (h caller r hr).trans (h' caller r hr)

/-- The row of a caller is replaced by one of which the same can be resolved. -/
theorem insert {caller : String} {row row' : Ledger String (List CallSite)}
    (hrow : g.get? caller = some row)
    (h : ∀ r, f.function? caller = some r → resolved f r row'.keys = resolved f r row.keys) :
    f.SameCalls g (g.insert caller row') := by
  intro k r hr
  rw [Ledger.get?_insert]
  by_cases hk : caller = k
  · subst hk
    rw [if_pos rfl, hrow, Option.map_some, Option.map_some, h r hr]
  · rw [if_neg hk]

/-- **A change that trims a call graph leaves what can be resolved.** -/
theorem of_trims (h : g.Trims f g') : f.SameCalls g g' := by
  cases h with
  | @caller caller h =>
      intro k r hr
      have hk : ¬ caller = k := fun e => by rw [e, hr] at h; cases h
      rw [Ledger.get?_erase, if_neg hk]
  | callee hrow h =>
      exact insert hrow fun r _ => by rw [Ledger.keys_erase, resolved_filter_of_none h]
  | declared hrow hr h =>
      refine insert hrow fun r' hr' => ?_
      cases hr.symm.trans hr'
      rw [Ledger.keys_erase, resolved_filter_of_declared h]
  | sites hrow h new =>
      exact insert hrow fun r _ => by
        rw [Ledger.keys_insert, if_pos (Ledger.mem_keys_iff.mpr ⟨_, h⟩)]

theorem of_reflTransGen (h : Relation.ReflTransGen (CallGraph.Trims f) g g') :
    f.SameCalls g g' := by
  induction h with
  | refl => exact refl f _
  | tail _ htrims ih => exact ih.trans (of_trims htrims)

/-- Call graphs that differ in sites only have the same calls. -/
theorem of_alike (h : g.Alike g') : f.SameCalls g g' := by
  intro caller r _
  have hkeys := congrArg (Option.map (resolved f r)) (h caller)
  rwa [Option.map_map, Option.map_map] at hkeys

/-! ### Collecting -/

open Bundles (addCallee)

/-- A callee without a record adds nothing. -/
theorem foldl_addCallee_filter (f : Facts) (caller : String) (sources : List String) (b : Bundles)
    (keys : List String) :
    (keys.filter fun key => (f.function? key).isSome).foldl (addCallee f caller sources) b =
      keys.foldl (addCallee f caller sources) b := by
  rw [List.foldl_filter]
  refine List.foldl_ext _ _ b fun b key _ => ?_
  rw [addCallee]
  cases f.function? key <;> rfl

/-- A caller adds the calls into those of its callees that can be resolved. -/
theorem addCaller_eq (f : Facts) (g : CallGraph) (b : Bundles) (caller : String)
    (r : FunctionRecord) :
    b.addCaller f g caller r =
      let b := { b with events := b.events ++ [Event.lookingForCaller caller] }
      ((g.get? caller).map fun row => resolved f r row.keys).elim b fun keys =>
        keys.foldl (addCallee f caller r.componentKeys)
          (Bundles.countFacts { b with events := b.events ++ [Event.callerFound caller] } r) := by
  rw [Bundles.addCaller]
  cases g.get? caller with
  | none => rfl
  | some row => exact (foldl_addCallee_filter ..).symm

/-- **The bundles are collected from what can be resolved.** -/
theorem collect_eq (h : f.SameCalls g g') : Bundles.collect f g' = Bundles.collect f g := by
  refine List.foldl_ext _ _ _ fun b ⟨caller, r⟩ hr => ?_
  dsimp only
  rw [addCaller_eq, addCaller_eq, h caller r (mem_functions_iff.mp hr)]

end SameCalls

end Facts

namespace ComponentGraph

theorem buildWith_of_sameCalls {f : Facts} {calls calls' : CallGraph} (h : f.SameCalls calls calls')
    (table : ComponentTable) (clamp : Bool) :
    buildWith f calls' table clamp = buildWith f calls table clamp := by
  rw [buildWith, buildWith, h.collect_eq]

/-- **Only what can be resolved of a call graph matters.**  However it is trimmed, the same graph is
built of any facts, over their own component table or any other.  So a text of a call graph that is
read is read as well with some of its lines again at its end, and has the same diagram. -/
theorem build_resolvable (f : Facts) (clamp : Bool) :
    (∀ calls calls', Relation.ReflTransGen (CallGraph.Trims f) calls calls' →
      (∃ graph events, build f calls clamp = .ok (graph, events) ∧
        build f calls' clamp = .ok (graph, events)) ∧
      ∀ table, buildWith f calls' table clamp = buildWith f calls table clamp) ∧
    ∀ (text text' : String) (again : List (List Char)) (read : CallGraph.Reading),
      CallGraph.ofText text = .ok read →
      Text.lines text'.toList = Text.lines text.toList ++ again →
      (∀ line ∈ again, line ∈ Text.lines text.toList) →
      ∃ read' graph graph' events events', CallGraph.ofText text' = .ok read' ∧
        build f read.graph clamp = .ok (graph, events) ∧
        build f read'.graph clamp = .ok (graph', events') ∧
        ∀ s, Diagram.source graph' s = Diagram.source graph s := by
  refine ⟨fun calls calls' htrims => ?_, fun text text' again read hread hlines hagain => ?_⟩
  · have hsame := Facts.SameCalls.of_reflTransGen htrims
    obtain ⟨graph, hbuild, -⟩ := exists_build f calls clamp
    exact ⟨⟨graph, _, hbuild, (buildWith_of_sameCalls hsame _ clamp).trans hbuild⟩,
      fun table => buildWith_of_sameCalls hsame table clamp⟩
  · obtain ⟨read', hread', halike⟩ := CallGraph.ofText_of_repeated hread hlines hagain
    obtain ⟨graph, hbuild, -⟩ := exists_build f read.graph clamp
    have hsame : f.SameCalls read.graph read'.graph := Facts.SameCalls.of_alike halike
    exact ⟨read', graph, graph, _, _, hread', hbuild,
      (buildWith_of_sameCalls hsame _ clamp).trans hbuild, fun _ => rfl⟩

/-- A caller that has no record, a callee that is declared, and a text whose first line comes
again. -/
theorem build_resolvable_declared :
    let f := (Facts.empty.putNew "a:F"
      { model := "M", function := "a.F", calls := [⟨"a:G", ""⟩],
        exposures := [⟨⟨"web", "app"⟩, "theft", "no login", none, ""⟩] }).putNew "a:G"
      { model := "M", function := "a.G",
        mitigations := [⟨⟨"web", "app"⟩, "theft", "a login", none, ""⟩] }
    let calls := (CallGraph.empty.addCall "x:H" "a:G" ⟨1, 1⟩).addCall "a:F" "a:G" ⟨2, 1⟩
    let row : Ledger String (List CallSite) := Ledger.empty.insert "a:G" [⟨2, 1⟩]
    let trimmed := (calls.erase "x:H").insert "a:F" (row.erase "a:G")
    let first := "a.F\t--static-1:1-->\ta.G"
    let text := first ++ "\nx.H\t--static-1:1-->\ta.G"
    let text' := text ++ "\n" ++ first
    Relation.ReflTransGen (CallGraph.Trims f) calls trimmed ∧
      (∃ graph events, build f calls false = .ok (graph, events) ∧
        build f trimmed false = .ok (graph, events)) ∧
      ∃ read read' graph graph' events events',
        CallGraph.ofText text = .ok read ∧ CallGraph.ofText text' = .ok read' ∧
        build f read.graph false = .ok (graph, events) ∧
        build f read'.graph false = .ok (graph', events') ∧
        ∀ s, Diagram.source graph' s = Diagram.source graph s := by
  intro f calls row trimmed first text text'
  have htrims : Relation.ReflTransGen (CallGraph.Trims f) calls trimmed :=
    .tail (.single (.caller (by rfl))) (.declared (by rfl) (by rfl) (by decide))
  have hsome : (CallGraph.ofText text).toOption.isSome = true := by decide +kernel
  obtain ⟨read, hread⟩ : ∃ read, CallGraph.ofText text = .ok read := by
    cases h : CallGraph.ofText text with
    | ok read => exact ⟨read, rfl⟩
    | error e => rw [h] at hsome; cases hsome
  obtain ⟨htrimmed, hrepeated⟩ := build_resolvable f false
  obtain ⟨read', graph, graph', events, events', hread', hbuild, hbuild', hsource⟩ :=
    hrepeated text text' [first.toList] read hread (by decide +kernel) (by decide +kernel)
  exact ⟨htrims, (htrimmed _ _ htrims).1, read, read', graph, graph', events, events', hread,
    hread', hbuild, hbuild', hsource⟩

end ComponentGraph

end ThreatModel
