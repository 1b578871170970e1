import Mathlib.Data.List.Nodup
import ThreatModel.Proofs.Component

/-!
# Bundles — the calls that run between two components

The effective calls are the pairs of a caller of the call graph and one of its effective callees
that have records (`effectiveCalls`).  A call joins every component of its caller to every component
of its callee, so it is placed once in the bundle of each such pair (`EffectiveCall.places`).

The nested loops that collect the bundles place the calls one after the other
(`calls_collect`).  A bundle then holds what was placed in it, in order (`at?_foldl_place`), which
is one call for each effective call that joins its two components (`at?_collect`).
-/

namespace ThreatModel

/-! ### Effective calls -/

/-- A caller, and one of its effective callees with the key it goes by. -/
structure EffectiveCall where
  caller : FunctionRecord
  key : String
  callee : FunctionRecord

/-- The effective calls, in the order of the table and then of each caller's callees. -/
def effectiveCalls (f : Facts) (g : CallGraph) : List EffectiveCall :=
  f.functions.flatMap fun (caller, r) =>
    (g.get? caller).toList.flatMap fun observed =>
      (effectiveCallees r observed.keys).flatMap fun key =>
        (f.function? key).toList.map fun callee => ⟨r, key, callee⟩

theorem mem_effectiveCalls_iff {f : Facts} {g : CallGraph} {c : EffectiveCall} :
    c ∈ effectiveCalls f g ↔ ∃ caller observed, (caller, c.caller) ∈ f.functions ∧
      g.get? caller = some observed ∧
      (c.key ∈ c.caller.calls.map DeclaredCall.callee ∨ c.key ∈ observed.keys) ∧
      f.function? c.key = some c.callee := by
  obtain ⟨r, key, callee⟩ := c
  simp only [effectiveCalls, effectiveCallees, List.mem_flatMap, List.mem_map, Option.mem_toList,
    mem_distinct_iff, List.mem_append, EffectiveCall.mk.injEq, Prod.exists]
  constructor
  · rintro ⟨caller, _, hmem, observed, hg, _, hkey, _, hf, rfl, rfl, rfl⟩
    exact ⟨caller, observed, hmem, hg, hkey, hf⟩
  · rintro ⟨caller, observed, hmem, hg, hkey, hf⟩
    exact ⟨caller, r, hmem, observed, hg, key, hkey, callee, hf, rfl, rfl, rfl⟩

namespace EffectiveCall

/-- The call runs from the component `source` into the component `target`. -/
def Joins (c : EffectiveCall) (source target : String) : Prop :=
  source ∈ c.caller.componentKeys ∧ target ∈ c.callee.componentKeys

instance (c : EffectiveCall) (source target : String) : Decidable (c.Joins source target) :=
  inferInstanceAs (Decidable (_ ∧ _))

/-- The call as a bundle lists it. -/
def call (c : EffectiveCall) : Call := Bundles.callInto c.key c.callee

end EffectiveCall

/-- One call for each effective call from `source` into `target`, in their order. -/
def callsBetween (f : Facts) (g : CallGraph) (source target : String) : List Call :=
  ((effectiveCalls f g).filter (·.Joins source target)).map EffectiveCall.call

namespace Bundles

/-! ### Placing calls -/

/-- A call and the bundle it is placed in. -/
structure Placement where
  source : String
  target : String
  call : Call

/-- The bundles by source and by target. -/
abbrev Table : Type := Ledger String (Ledger String (List Call))

/-- Places a call at the end of its bundle. -/
def place (t : Table) (p : Placement) : Table :=
  t.alter p.source fun targets => (targets.getD .empty).alter p.target fun cs => cs.getD [] ++ [p.call]

/-- The bundle of two components. -/
def at? (t : Table) (source target : String) : Option (List Call) :=
  (t.get? source).bind fun targets => targets.get? target

/-- The calls that are placed in one bundle. -/
def placedIn (source target : String) (ps : List Placement) : List Call :=
  (ps.filter fun p => p.source = source ∧ p.target = target).map Placement.call

theorem foldl_place (ps : List Placement) :
    ps.foldl place .empty =
      Ledger.group Placement.source Placement.target Placement.call ps := rfl

/-- **A bundle holds what was placed in it, in order**; nothing placed, no bundle. -/
theorem at?_foldl_place (ps : List Placement) (source target : String) :
    at? (ps.foldl place .empty) source target =
      if placedIn source target ps = [] then none else some (placedIn source target ps) := by
  rw [at?, foldl_place, Ledger.get?_group, placedIn]
  simp only [List.map_eq_nil_iff]

/-- No source is without a bundle. -/
theorem exists_mem_keys_of_get? {ps : List Placement} {source : String}
    {targets : Ledger String (List Call)}
    (h : (ps.foldl place .empty).get? source = some targets) : ∃ target, target ∈ targets.keys := by
  rw [foldl_place] at h
  obtain ⟨⟨p, hp, hs⟩, hkeys⟩ := Ledger.of_get?_group _ _ _ h
  refine ⟨p.target, ?_⟩
  rw [hkeys, mem_distinct_iff]
  exact List.mem_map_of_mem (List.mem_filter.mpr ⟨hp, decide_eq_true hs⟩)

theorem placedIn_flatMap {α : Type} (places : α → List Placement) (as : List α)
    (source target : String) :
    placedIn source target (as.flatMap places) =
      as.flatMap fun a => placedIn source target (places a) := by
  simp only [placedIn, List.filter_flatMap, List.map_flatMap]

end Bundles

/-! ### Collecting -/

theorem flatMap_ite_of_nodup {α β : Type} [DecidableEq α] {as : List α} (h : as.Nodup) (a : α)
    (bs : List β) :
    (as.flatMap fun x => if x = a then bs else []) = if a ∈ as then bs else [] := by
  induction as with
  | nil => rfl
  | cons x as ih =>
      obtain ⟨hx, has⟩ := List.nodup_cons.mp h
      rw [List.flatMap_cons, ih has]
      by_cases hxa : x = a
      · subst hxa
        simp [hx]
      · simp [hxa, Ne.symm hxa]

theorem flatMap_ite_eq_map_filter {α β : Type} (p : α → Prop) [DecidablePred p] (g : α → β)
    (as : List α) : (as.flatMap fun a => if p a then [g a] else []) = (as.filter p).map g := by
  induction as with
  | nil => rfl
  | cons a as ih => by_cases ha : p a <;> simp [ha, ih]

namespace EffectiveCall

/-- Where a call is placed: in the bundle of each component of its caller and each of its callee. -/
def places (c : EffectiveCall) : List Bundles.Placement :=
  c.caller.componentKeys.flatMap fun source =>
    c.callee.componentKeys.map fun target => ⟨source, target, c.call⟩

theorem placedIn_places (c : EffectiveCall) (source target : String) :
    Bundles.placedIn source target c.places = if c.Joins source target then [c.call] else [] := by
  -- no component comes twice, so the call is placed once for each of its bundles
  have htargets : ∀ s, Bundles.placedIn source target
      (c.callee.componentKeys.map fun t => ⟨s, t, c.call⟩) =
        if s = source then (if target ∈ c.callee.componentKeys then [c.call] else []) else [] := by
    intro s
    rw [List.map_eq_flatMap, Bundles.placedIn_flatMap]
    by_cases hs : s = source
    · rw [if_pos hs, ← flatMap_ite_of_nodup c.callee.nodup_componentKeys]
      refine List.flatMap_congr fun t _ => ?_
      by_cases ht : t = target <;> simp [Bundles.placedIn, hs, ht]
    · simp [Bundles.placedIn, hs]
  rw [places, Bundles.placedIn_flatMap]
  simp only [htargets]
  rw [flatMap_ite_of_nodup c.caller.nodup_componentKeys]
  by_cases hs : source ∈ c.caller.componentKeys <;>
    by_cases ht : target ∈ c.callee.componentKeys <;> simp [Joins, hs, ht]

end EffectiveCall

namespace Bundles

variable {f : Facts} {g : CallGraph}

/-- Steps that place calls place them one after the other. -/
theorem calls_foldl {α : Type} {step : Bundles → α → Bundles} (places : α → List Placement)
    (h : ∀ b a, (step b a).calls = (places a).foldl place b.calls) (as : List α) (b : Bundles) :
    (as.foldl step b).calls = (as.flatMap places).foldl place b.calls := by
  induction as generalizing b with
  | nil => rfl
  | cons a as ih => rw [List.foldl_cons, ih, h, List.flatMap_cons, List.foldl_append]

theorem calls_addCallee (caller : String) (r : FunctionRecord) (b : Bundles) (key : String) :
    (addCallee f caller r.componentKeys b key).calls =
      (((f.function? key).toList.map fun callee => EffectiveCall.mk r key callee).flatMap
        EffectiveCall.places).foldl place b.calls := by
  rw [addCallee]
  cases f.function? key with
  | none => rfl
  | some callee =>
      have htargets : ∀ (b : Bundles) source,
          (callee.componentKeys.foldl (fun b target => b.addCall source target (callInto key callee))
            b).calls = (callee.componentKeys.map fun target =>
              (⟨source, target, callInto key callee⟩ : Placement)).foldl place b.calls := by
        intro b source
        rw [List.map_eq_flatMap]
        exact calls_foldl (fun target => [⟨source, target, callInto key callee⟩])
          (fun _ _ => rfl) _ b
      rw [Option.toList_some, List.map_singleton, List.flatMap_singleton]
      exact calls_foldl _ htargets r.componentKeys _

theorem calls_addCaller (b : Bundles) (caller : String) (r : FunctionRecord) :
    (b.addCaller f g caller r).calls =
      (((g.get? caller).toList.flatMap fun observed =>
        (effectiveCallees r observed.keys).flatMap fun key =>
          (f.function? key).toList.map fun callee => EffectiveCall.mk r key callee).flatMap
        EffectiveCall.places).foldl place b.calls := by
  rw [addCaller]
  cases g.get? caller with
  | none => rfl
  | some observed =>
      rw [Option.toList_some, List.flatMap_singleton, List.flatMap_assoc]
      exact calls_foldl _ (calls_addCallee caller r) _ _

/-- **Collecting places the effective calls one after the other.** -/
theorem calls_collect (f : Facts) (g : CallGraph) :
    (collect f g).calls = ((effectiveCalls f g).flatMap EffectiveCall.places).foldl place .empty := by
  rw [collect, effectiveCalls, List.flatMap_assoc]
  exact calls_foldl _ (fun b e => calls_addCaller b e.1 e.2) f.functions {}

/-- **A bundle holds one call for each effective call that joins its components.** -/
theorem at?_collect (f : Facts) (g : CallGraph) (source target : String) :
    at? (collect f g).calls source target =
      if callsBetween f g source target = [] then none
      else some (callsBetween f g source target) := by
  have hplaced : placedIn source target ((effectiveCalls f g).flatMap EffectiveCall.places) =
      callsBetween f g source target := by
    simp only [placedIn_flatMap, EffectiveCall.placedIn_places]
    exact flatMap_ite_eq_map_filter _ _ _
  rw [calls_collect, at?_foldl_place, hplaced]

end Bundles

end ThreatModel
