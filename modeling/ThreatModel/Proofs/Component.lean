import ThreatModel.ComponentGraph
import ThreatModel.Proofs.Distinct
import ThreatModel.Proofs.Ledger

/-!
# Components — what the component table has entries for

* `mem_keys_analyze`: the table has a component for each place that a mitigation, an exposure or a
  capability of a function of the table is about, and for no other.
-/

namespace ThreatModel

theorem FunctionRecord.mem_componentKeys_iff {r : FunctionRecord} {k : String} :
    k ∈ r.componentKeys ↔ (∃ m ∈ r.mitigations, k = m.place.key) ∨
      (∃ e ∈ r.exposures, k = e.place.key) ∨ ∃ c ∈ r.capabilities, k = c.place.key := by
  simp only [componentKeys, mem_distinct_iff, List.mem_append, List.mem_map, or_assoc, eq_comm]

theorem FunctionRecord.nodup_componentKeys (r : FunctionRecord) : r.componentKeys.Nodup :=
  nodup_distinct _

namespace ComponentTable

variable {t : ComponentTable} {k : String}

theorem mem_keys_addMitigation (t : ComponentTable) (p : Provenance) :
    k ∈ (t.addMitigation p).keys ↔ k ∈ t.keys ∨ k = p.fact.place.key :=
  Ledger.mem_keys_alter

theorem mem_keys_addExposure (t : ComponentTable) (p : Provenance) :
    k ∈ (t.addExposure p).keys ↔ k ∈ t.keys ∨ k = p.fact.place.key :=
  Ledger.mem_keys_alter

theorem mem_keys_addCapability (t : ComponentTable) (c : Capability) :
    k ∈ (t.addCapability c).keys ↔ k ∈ t.keys ∨ k = c.place.key :=
  Ledger.mem_keys_alter

theorem mem_keys_addFunction (t : ComponentTable) (key : String) (r : FunctionRecord) :
    k ∈ (t.addFunction key r).keys ↔ k ∈ t.keys ∨ k ∈ r.componentKeys := by
  have hm := Ledger.mem_keys_foldl (l := t) (fun (m : ThreatFact) (k : String) => k = m.place.key)
    (fun t m => mem_keys_addMitigation (k := k) t ⟨m, key, r.site⟩) r.mitigations
  have he := fun t => Ledger.mem_keys_foldl (l := t)
    (fun (e : ThreatFact) (k : String) => k = e.place.key)
    (fun t e => mem_keys_addExposure (k := k) t ⟨e, key, r.site⟩) r.exposures
  have hc := fun t => Ledger.mem_keys_foldl (l := t)
    (fun (c : Capability) (k : String) => k = c.place.key)
    (mem_keys_addCapability (k := k)) r.capabilities
  rw [addFunction, hc, he, hm, FunctionRecord.mem_componentKeys_iff, or_assoc, or_assoc]

/-- The table has the components of the functions of the table, and no others. -/
theorem mem_keys_analyze {f : Facts} :
    k ∈ (analyze f).keys ↔ ∃ key r, (key, r) ∈ f.functions ∧ k ∈ r.componentKeys := by
  rw [analyze, Ledger.mem_keys_foldl (fun e k => k ∈ e.2.componentKeys)
    fun t e => mem_keys_addFunction t e.1 e.2]
  simp [Ledger.keys]

end ComponentTable

end ThreatModel
