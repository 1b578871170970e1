import ThreatModel.Proofs.ComponentGraph.Colors

/-!
# Worst colour — the colour of a bundle is the join of those of its calls

The worst severity is looked for from the top, one severity after the other, in all calls.  It is
the greatest that a call has (`rank_le_bundleSeverity`, `exists_severity_eq_bundleSeverity`), and so
that of two bundles taken together is the greater of theirs (`rank_bundleSeverity_append`).  A
bundle's colour then hangs on which calls are in it, and on nothing else.

* `bundleColor_joins`: the colour of an empty bundle, of one call, and of two bundles.
-/

namespace ThreatModel

/-- The colour of a bundle of calls. -/
def bundleColor (calls : List Call) : String := (bundleSeverity calls).color

/-- The worse of two colours of edges: the one that comes later in `edgeColors`. -/
def worse (color color' : String) : String :=
  if edgeColors.idxOf color ≤ edgeColors.idxOf color' then color' else color

/-! ### Severities by rank and by colour -/

namespace Severity

variable {s s' : Severity}

theorem eq_of_rank_eq : s.rank = s'.rank → s = s' := by
  cases s <;> cases s' <;> decide

theorem color_inj : s.color = s'.color ↔ s = s' := by
  refine ⟨fun h => eq_of_rank_eq ?_, congrArg color⟩
  have hidx : ∀ s : Severity, edgeColors.idxOf s.color = s.rank := fun s => by cases s <;> rfl
  rw [← hidx, ← hidx, h]

theorem worse_color : worse s.color s'.color = if s.rank ≤ s'.rank then s'.color else s.color := by
  cases s <;> cases s' <;> rfl

end Severity

/-- A call is exposed if it has exposures and no mitigations. -/
theorem Call.severity_eq_exposed_iff {c : Call} :
    c.severity = .exposed ↔ 0 < c.exposures ∧ ¬ 0 < c.mitigations := by
  by_cases he : 0 < c.exposures <;> by_cases hm : 0 < c.mitigations <;>
    simp [severity, Severity.ofCounts?, he, hm]

/-! ### Bundles -/

section
variable {calls calls' : List Call}

theorem bundleSeverity_singleton (c : Call) : bundleSeverity [c] = c.severity := by
  obtain ⟨c', hc', hworst⟩ := exists_severity_eq_bundleSeverity (List.cons_ne_nil c [])
  rw [← hworst, List.mem_singleton.mp hc']

/-- **Of two bundles together the worst call is the worse of the two.** -/
theorem rank_bundleSeverity_append (calls calls' : List Call) :
    (bundleSeverity (calls ++ calls')).rank =
      max (bundleSeverity calls).rank (bundleSeverity calls').rank := by
  have hpart : ∀ part : List Call, part ⊆ calls ++ calls' →
      (bundleSeverity part).rank ≤ (bundleSeverity (calls ++ calls')).rank := fun part hsub =>
    rank_bundleSeverity_mono fun c hc => ⟨c, hsub hc, Nat.le_refl _⟩
  refine Nat.le_antisymm ?_ (Nat.max_le.mpr
    ⟨hpart _ (List.subset_append_left _ _), hpart _ (List.subset_append_right _ _)⟩)
  by_cases hnil : calls ++ calls' = []
  · rw [hnil]
    exact Nat.zero_le _
  · obtain ⟨c, hc, hworst⟩ := exists_severity_eq_bundleSeverity hnil
    rw [← hworst]
    rcases List.mem_append.mp hc with hc | hc
    · exact (rank_le_bundleSeverity hc).trans (Nat.le_max_left _ _)
    · exact (rank_le_bundleSeverity hc).trans (Nat.le_max_right _ _)

theorem bundleSeverity_eq_exposed_iff :
    bundleSeverity calls = .exposed ↔ ∃ c ∈ calls, c.severity = .exposed := by
  constructor
  · intro h
    have hne : calls ≠ [] := by
      rintro rfl
      cases h
    obtain ⟨c, hc, hworst⟩ := exists_severity_eq_bundleSeverity hne
    exact ⟨c, hc, hworst.trans h⟩
  · rintro ⟨c, hc, hexposed⟩
    have hrank := rank_le_bundleSeverity hc
    rw [hexposed] at hrank
    cases hworst : bundleSeverity calls with
    | exposed => rfl
    | _ =>
        rw [hworst] at hrank
        exact absurd hrank (by decide)

end

/-- **The colour of a bundle is the join of the colours of its calls**, in the order black, dark
green, orange, red: an empty bundle is black, one call has the colour of its counts, and two bundles
together have the worse of their colours.  So a bundle has the same colour with its calls in another
order or repeated, and it is red iff some call has exposures and no mitigations. -/
theorem bundleColor_joins (calls calls' : List Call) :
    bundleColor [] = "black" ∧
      (∀ callee (mitigations exposures : Nat), bundleColor [⟨callee, mitigations, exposures⟩] =
        (ComponentGraph.colorOf? mitigations exposures).getD "black") ∧
      bundleColor (calls ++ calls') = worse (bundleColor calls) (bundleColor calls') ∧
      ((∀ c, c ∈ calls ↔ c ∈ calls') → bundleColor calls = bundleColor calls') ∧
      (bundleColor calls = "red" ↔ ∃ c ∈ calls, 0 < c.exposures ∧ ¬ 0 < c.mitigations) := by
  refine ⟨rfl, fun callee mitigations exposures => ?_, ?_, fun hmem => ?_, ?_⟩
  · rw [← ComponentGraph.color_ofCounts?, bundleColor, bundleSeverity_singleton, Call.severity]
    cases Severity.ofCounts? mitigations exposures <;> rfl
  · have hrank := rank_bundleSeverity_append calls calls'
    rw [bundleColor, bundleColor, bundleColor, Severity.worse_color]
    split
    · rename_i hle
      rw [Nat.max_eq_right hle] at hrank
      rw [Severity.eq_of_rank_eq hrank]
    · rename_i hlt
      rw [Nat.max_eq_left (Nat.le_of_not_le hlt)] at hrank
      rw [Severity.eq_of_rank_eq hrank]
  · rw [bundleColor, bundleColor, bundleSeverity_congr hmem]
  · have hred : bundleColor calls = Severity.exposed.color ↔ bundleSeverity calls = .exposed :=
      Severity.color_inj
    rw [Severity.color] at hred
    simp only [hred, bundleSeverity_eq_exposed_iff, Call.severity_eq_exposed_iff]

/-- A mitigated call, a call that is partly exposed and one that is wholly so, in another order and
repeated. -/
theorem bundleColor_joins_repeated :
    let a : Call := ⟨"a.F", 2, 0⟩
    let b : Call := ⟨"b.G", 1, 3⟩
    let c : Call := ⟨"c.H", 0, 1⟩
    (∀ x, x ∈ [a, b, a, c] ↔ x ∈ [c, b, a, b]) ∧
      bundleColor [a, b, a, c] = bundleColor [c, b, a, b] ∧ bundleColor [c, b, a, b] = "red" ∧
      bundleColor ([a, b] ++ [a]) = worse "orange" "darkgreen" := by
  intro a b c
  have hmem : ∀ x, x ∈ [a, b, a, c] ↔ x ∈ [c, b, a, b] := by
    intro x
    simp only [List.mem_cons, List.not_mem_nil, or_false]
    tauto
  have hred := (bundleColor_joins [c, b, a, b] []).2.2.2.2.mpr
    ⟨c, List.mem_cons_self, by decide⟩
  exact ⟨hmem, (bundleColor_joins _ _).2.2.2.1 hmem, hred,
    (bundleColor_joins [a, b] [a]).2.2.1⟩

end ThreatModel
