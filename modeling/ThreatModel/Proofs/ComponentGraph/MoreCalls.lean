import Mathlib.Algebra.Order.BigOperators.Group.List
import Mathlib.Algebra.Order.Group.Nat
import Mathlib.Data.List.Flatten
import Mathlib.Data.List.Perm.Subperm
import ThreatModel.Proofs.ComponentGraph.Colors

/-!
# More calls — a richer call graph hides nothing

A call graph is within another if that one has all its callers, and for each of them all its callees
(`CallGraph.Within`).  The effective callees of a caller may then come in another order, but those
of the smaller graph are among those of the larger, each once; so the effective calls of the smaller
graph, which are listed caller by caller, are among those of the larger
(`effectiveCalls_subperm`), and so is what is counted for them (`callTotal_le_of_within`).

* `build_more_calls`: the edges of the smaller graph are edges of the larger, with the calls they
  had and in no safer colour, and no count goes down.
-/

namespace ThreatModel

/-- All calls between callers and callees of `g` are in `g'`. -/
def CallGraph.Within (g g' : CallGraph) : Prop :=
  ∀ caller callees, g.get? caller = some callees →
    ∃ callees', g'.get? caller = some callees' ∧ ∀ key ∈ callees.keys, key ∈ callees'.keys

/-- A call that is added takes no other away. -/
theorem CallGraph.within_addCall (g : CallGraph) (caller callee : String) (site : CallSite) :
    g.Within (g.addCall caller callee site) := by
  intro k callees hget
  rw [addCall, Ledger.get?_alter]
  by_cases hk : caller = k
  · subst hk
    rw [if_pos rfl, hget]
    exact ⟨_, rfl, fun key hkey => Ledger.mem_keys_alter.mpr (.inl hkey)⟩
  · rw [if_neg hk]
    exact ⟨callees, hget, fun _ hkey => hkey⟩

/-! ### Lists within lists -/

section
variable {α β : Type}

theorem flatMap_subperm_of_forall {h h' : α → List β} {as : List α}
    (hle : ∀ a ∈ as, (h a).Subperm (h' a)) : (as.flatMap h).Subperm (as.flatMap h') := by
  induction as with
  | nil => exact List.Subperm.refl _
  | cons a as ih =>
      obtain ⟨ha, has⟩ := List.forall_mem_cons.mp hle
      rw [List.flatMap_cons, List.flatMap_cons]
      exact ha.append (ih has)

theorem flatMap_subperm {as bs : List α} (hle : as.Subperm bs) (h : α → List β) :
    (as.flatMap h).Subperm (bs.flatMap h) := by
  obtain ⟨cs, hperm, hsub⟩ := hle
  exact ⟨cs.flatMap h, hperm.flatMap_right h, hsub.flatMap h⟩

theorem sum_map_le_of_subperm {as bs : List α} (hle : as.Subperm bs) (count : α → Nat) :
    (as.map count).sum ≤ (bs.map count).sum := by
  obtain ⟨cs, hperm, hsub⟩ := hle
  rw [← (hperm.map count).sum_eq]
  exact (hsub.map count).sum_le_sum fun _ _ => Nat.zero_le _

end

/-! ### Effective calls -/

/-- More observed callees give more effective ones. -/
theorem effectiveCallees_subperm (r : FunctionRecord) {observed observed' : List String}
    (h : ∀ key ∈ observed, key ∈ observed') :
    (effectiveCallees r observed).Subperm (effectiveCallees r observed') := by
  refine List.subperm_of_subset (nodup_distinct _) fun key hkey => ?_
  rw [effectiveCallees, mem_distinct_iff, List.mem_append] at hkey ⊢
  exact hkey.imp_right (h key)

section
variable {g g' : CallGraph}

/-- The effective calls of a call graph are among those of a richer one. -/
theorem effectiveCalls_subperm (f : Facts) (h : g.Within g') :
    (effectiveCalls f g).Subperm (effectiveCalls f g') := by
  refine flatMap_subperm_of_forall fun ⟨caller, r⟩ _ => ?_
  dsimp only
  cases hget : g.get? caller with
  | none =>
      rw [Option.toList_none, List.flatMap_nil]
      exact List.nil_subperm
  | some callees =>
      obtain ⟨callees', hget', hkeys⟩ := h caller callees hget
      rw [hget', Option.toList_some, Option.toList_some, List.flatMap_singleton,
        List.flatMap_singleton]
      exact flatMap_subperm (effectiveCallees_subperm r hkeys) _

/-- The calls between two components are among those of a richer call graph. -/
theorem callsBetween_subperm (f : Facts) (h : g.Within g') (source target : String) :
    (callsBetween f g source target).Subperm (callsBetween f g' source target) := by
  obtain ⟨cs, hperm, hsub⟩ : ((effectiveCalls f g).filter (·.Joins source target)).Subperm
      ((effectiveCalls f g').filter (·.Joins source target)) :=
    (effectiveCalls_subperm f h).filter _
  exact ⟨cs.map EffectiveCall.call, hperm.map _, hsub.map _⟩

/-- A richer call graph counts no less. -/
theorem callTotal_le_of_within (f : Facts) (h : g.Within g') (count : FunctionRecord → Nat) :
    callTotal f g count ≤ callTotal f g' count := by
  refine List.sum_le_sum fun ⟨caller, r⟩ _ => ?_
  dsimp only
  cases hget : g.get? caller with
  | none => exact Nat.zero_le _
  | some callees =>
      obtain ⟨callees', hget', hkeys⟩ := h caller callees hget
      simp only [hget']
      exact Nat.add_le_add_left
        (sum_map_le_of_subperm (effectiveCallees_subperm r hkeys) _) _

end

namespace ComponentGraph

/-- **A richer call graph hides no edge.**  The graphs of any facts over two call graphs, one within
the other, are built; each edge of the smaller is an edge of the larger, which has its calls and is
in no safer colour, and no count of the smaller exceeds that of the larger. -/
theorem build_more_calls (f : Facts) {calls calls' : CallGraph} (h : calls.Within calls')
    (clamp : Bool) :
    ∃ graph events graph' events', build f calls clamp = .ok (graph, events) ∧
      build f calls' clamp = .ok (graph', events') ∧
      (∀ e ∈ graph.edges, ∃ e' ∈ graph'.edges, e'.source = e.source ∧ e'.target = e.target ∧
        e.calls.Subperm e'.calls ∧ NoSafer edgeColors e.color e'.color) ∧
      ∀ component,
        Tally.count graph.mitigations component ≤ Tally.count graph'.mitigations component ∧
          Tally.count graph.exposures component ≤ Tally.count graph'.exposures component := by
  obtain ⟨graph, hbuild, -, hedges⟩ := exists_build f calls clamp
  obtain ⟨graph', hbuild', -, hedges'⟩ := exists_build f calls' clamp
  have hcounts := hasSeverities_of_buildWith hbuild
  have hcounts' := hasSeverities_of_buildWith hbuild'
  refine ⟨graph, _, graph', _, hbuild, hbuild', fun e he => ?_, fun component => ⟨?_, ?_⟩⟩
  · rw [hedges] at he
    obtain ⟨e', he', hsource, htarget, hcolor⟩ := exists_edge_noSafer
      (fun c hc => ⟨c, (effectiveCalls_subperm f h).subset hc, fun _ _ hjoins => hjoins, le_rfl⟩) he
    refine ⟨e', hedges' ▸ he', hsource, htarget, ?_, hcolor⟩
    rw [(mem_edgesOf_collect_iff.mp he).2, (mem_edgesOf_collect_iff.mp he').2, hsource, htarget]
    exact callsBetween_subperm f h e.source e.target
  · rw [hcounts.mitigations, hcounts'.mitigations]
    exact callTotal_le_of_within f h _
  · rw [hcounts.exposures, hcounts'.exposures]
    exact callTotal_le_of_within f h _

/-- A function that calls itself, and another one that is seen to be called as well. -/
theorem build_more_calls_observed :
    let f := (Facts.empty.putNew "F"
      { model := "M", function := "F",
        exposures := [⟨⟨"web", "app"⟩, "theft", "no login", none, ""⟩] }).putNew "G"
      { model := "M", function := "G",
        mitigations := [⟨⟨"web", "app"⟩, "theft", "a login", none, ""⟩] }
    let calls := CallGraph.empty.addCall "F" "F" ⟨1, 1⟩
    let calls' := calls.addCall "F" "G" ⟨2, 1⟩
    calls.Within calls' ∧
      ∃ graph events graph' events', build f calls false = .ok (graph, events) ∧
        build f calls' false = .ok (graph', events') ∧
        (∀ e ∈ graph.edges, ∃ e' ∈ graph'.edges, e'.source = e.source ∧ e'.target = e.target ∧
          e.calls.Subperm e'.calls ∧ NoSafer edgeColors e.color e'.color) ∧
        ∀ component,
          Tally.count graph.mitigations component ≤ Tally.count graph'.mitigations component ∧
            Tally.count graph.exposures component ≤ Tally.count graph'.exposures component := by
  intro f calls calls'
  have h : calls.Within calls' := CallGraph.within_addCall calls "F" "G" ⟨2, 1⟩
  exact ⟨h, build_more_calls f h false⟩

end ComponentGraph

end ThreatModel
