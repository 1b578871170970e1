import Mathlib.Data.List.Nodup
import ThreatModel.Proofs.Annotations.Sources

/-!
# Source order — what the order of the sources decides

Each part of the facts is made of what the sources have by themselves, put together in their order.
So another order of the sources gives the same records, packages, tests and definitions in another
order, and all that is counted stays the same.

Which record of a key has its entry does depend on the order: it is the last one
(`Filed.function?_eq`).  If no two sources declare one key, all records of a key come from one
source, and their order is the one they have there (`filter_key_perm`); then the table has the same
records, and so have the duplicates.
-/

namespace ThreatModel

/-- The last place of a key in a list holds the last element of the key. -/
theorem bind_lastAt {α κ : Type} [DecidableEq κ] (key : α → κ) (as : List α) (k : κ) :
    (lastAt k (as.map key)).bind (as[·]?) = (as.filter (key · = k)).getLast? := by
  induction as using List.reverseRecOn with
  | nil => rfl
  | append_singleton as a ih =>
      rw [List.map_append, List.map_singleton, lastAt_concat, List.length_map, List.filter_append]
      by_cases ha : key a = k
      · simp [ha]
      · rw [if_neg ha, List.filter_singleton, decide_eq_false ha]
        cases hlast : lastAt k (as.map key) with
        | none => simpa [hlast] using ih
        | some i =>
            have hlt : i < as.length := by
              have hi := (List.getElem?_eq_some_iff.mp (lastAt_eq_some_iff.mp hlast).1).1
              rwa [List.length_map] at hi
            simpa [hlast, List.getElem?_append_left hlt] using ih

namespace Facts

variable {f : Facts}

/-! ### What is filed, by content -/

/-- **The entry of a key is its last record.** -/
theorem Filed.function?_eq (h : f.Filed) (k : String) :
    f.function? k = (f.records.filter (·.key = k)).getLast? := by
  rw [function?, h.last, ← bind_lastAt FunctionRecord.key, ← recordKeys]
  cases hlast : lastAt k f.recordKeys with
  | none => rfl
  | some id =>
      have hid := (lastAt_eq_some_iff.mp hlast).1
      rw [recordKeys, List.getElem?_map] at hid
      obtain ⟨r, hr, -⟩ := Option.map_eq_some_iff.mp hid
      rw [Option.map_some, Option.bind_some, record, List.getD_eq_getElem?_getD, hr]
      rfl

/-- The records of the table and the duplicates are all records. -/
theorem Filed.perm_records (h : f.Filed) :
    (f.table.keys.filterMap f.function? ++ f.duplicates.map f.record).Perm f.records := by
  have hvalues : f.table.values.map f.record = f.table.keys.filterMap f.function? := by
    rw [Ledger.values, Ledger.toList_eq, List.map_map, List.map_filterMap]
    refine List.filterMap_congr fun k _ => ?_
    rw [Option.map_map]
    rfl
  have hall : (List.range f.records.length).map f.record = f.records := by
    have haccounts := f.map_record_accounts
    rwa [accounts, List.map_map] at haccounts
  have hfiled := h.once.map f.record
  rwa [List.map_append, hvalues, hall] at hfiled

/-- The records that facts are counted for, each with its count, in order of first counting. -/
def counted (f : Facts) : List Account := f.covered.toList.map fun (id, n) => ⟨f.record id, n⟩

theorem counted_eq (f : Facts) : f.counted = f.covered.keys.map f.account := by
  rw [counted, Ledger.keys, List.map_map]
  refine List.map_congr_left fun entry h => ?_
  rw [Function.comp_apply, account, Tally.count_of_get? (Ledger.mem_toList_iff.mp h)]

theorem CountsRecords.mem_keys_iff (h : f.CountsRecords) {id : RecordId} :
    id ∈ f.covered.keys ↔ id < f.records.length ∧ 0 < Tally.count f.covered id := by
  rw [Ledger.mem_keys_iff]
  constructor
  · rintro ⟨n, hget⟩
    rw [Tally.count_of_get? hget]
    exact h id n hget
  · rintro ⟨-, hpos⟩
    cases hget : f.covered.get? id with
    | none =>
        rw [Tally.count, hget] at hpos
        exact absurd hpos (Nat.lt_irrefl 0)
    | some n => exact ⟨n, rfl⟩

/-- What is counted are the accounts that have facts. -/
theorem CountsRecords.perm_counted (h : f.CountsRecords) :
    f.counted.Perm (f.accounts.filter fun a => 0 < a.facts) := by
  have hkeys : f.covered.keys.Perm
      ((List.range f.records.length).filter fun id => 0 < Tally.count f.covered id) :=
    (List.perm_ext_iff_of_nodup f.covered.nodup_keys (List.nodup_range.filter _)).mpr fun id => by
      rw [← Ledger.keys, h.mem_keys_iff, List.mem_filter, List.mem_range, decide_eq_true_eq]
  rw [counted_eq, accounts, List.filter_map]
  exact hkeys.map f.account

end Facts

namespace Annotations

/-! ### Sources in another order -/

/-- The keys of the functions whose headers are in a source. -/
def declaredKeys (source : String × String) : List String :=
  (headersOf source).map fun h => h.opened.key

/-- No two different sources have headers of one function. -/
def DeclareApart (sources : List (String × String)) : Prop :=
  ∀ a ∈ sources, ∀ b ∈ sources, a ≠ b → ∀ k ∈ declaredKeys a, k ∉ declaredKeys b

instance (sources : List (String × String)) : Decidable (DeclareApart sources) :=
  inferInstanceAs (Decidable (∀ a ∈ sources, ∀ b ∈ sources, a ≠ b →
    ∀ k ∈ declaredKeys a, k ∉ declaredKeys b))

variable {sources sources' : List (String × String)}

/-- If only equal elements contribute to a list, their order does not matter. -/
theorem flatMap_eq_of_perm {α β : Type} {as as' : List α} (hperm : as.Perm as') {g : α → List β}
    (heq : ∀ a ∈ as, ∀ b ∈ as, g a ≠ [] → g b ≠ [] → a = b) : as.flatMap g = as'.flatMap g := by
  have hfilter : ∀ l : List α, l.flatMap g = (l.filter fun a => !(g a).isEmpty).flatMap g := by
    intro l
    induction l with
    | nil => rfl
    | cons a l ih =>
        rw [List.flatMap_cons, ih, List.filter_cons]
        cases hg : g a <;> simp [hg]
  have hsame : (as.filter fun a => !(g a).isEmpty) = as'.filter fun a => !(g a).isEmpty := by
    have hcontributes : ∀ a ∈ as.filter fun a => !(g a).isEmpty, a ∈ as ∧ g a ≠ [] := by
      intro a ha
      simpa using ha
    have hp := hperm.filter fun a => !(g a).isEmpty
    cases hl : as.filter fun a => !(g a).isEmpty with
    | nil =>
        rw [hl] at hp
        exact hp.nil_eq
    | cons a l =>
        -- all that contribute are copies of the first
        obtain ⟨ha, hga⟩ := hcontributes a (hl ▸ List.mem_cons_self)
        have hcopies : (as.filter fun a => !(g a).isEmpty) = List.replicate (l.length + 1) a := by
          refine List.eq_replicate_iff.mpr ⟨by rw [hl]; rfl, fun b hb => ?_⟩
          obtain ⟨hb, hgb⟩ := hcontributes b hb
          exact heq b hb a ha hgb hga
        rw [hcopies] at hp
        rw [← hl, hcopies]
        exact (List.perm_replicate.mp hp.symm).symm
  rw [hfilter as, hsame, ← hfilter]

variable (rebind : Bool)

theorem accounts_perm (hperm : sources.Perm sources') :
    (factsOf rebind sources).accounts.Perm (factsOf rebind sources').accounts := by
  rw [accounts_factsOf, accounts_factsOf]
  exact (hperm.flatMap_right _).map _

theorem records_perm (hperm : sources.Perm sources') :
    (factsOf rebind sources).records.Perm (factsOf rebind sources').records := by
  rw [← Facts.map_record_accounts, ← Facts.map_record_accounts]
  exact (accounts_perm rebind hperm).map _

/-- The keys of the table are the same. -/
theorem keys_table_perm (hperm : sources.Perm sources') :
    (factsOf rebind sources).table.keys.Perm (factsOf rebind sources').table.keys := by
  rw [(filed_factsOf rebind sources).order, (filed_factsOf rebind sources').order]
  exact distinct_perm ((records_perm rebind hperm).map _)

/-- **If sources declare apart, the records of a key come in the order they have in their source**,
wherever the source stands. -/
theorem filter_key_perm (hperm : sources.Perm sources') (hapart : DeclareApart sources)
    (k : String) : (factsOf rebind sources).records.filter (·.key = k) =
      (factsOf rebind sources').records.filter (·.key = k) := by
  have hsplit : ∀ sources, (factsOf rebind sources).records.filter (·.key = k) =
      sources.flatMap fun source =>
        ((headersOf source).map fun h => (h.account rebind).record).filter (·.key = k) := by
    intro sources
    rw [records_factsOf, List.map_flatMap, List.filter_flatMap]
  have hdeclares : ∀ source,
      ((headersOf source).map fun h => (h.account rebind).record).filter (·.key = k) ≠ [] →
        k ∈ declaredKeys source := by
    intro source hne
    obtain ⟨r, hr⟩ := List.exists_mem_of_ne_nil _ hne
    obtain ⟨hr, hk⟩ := List.mem_filter.mp hr
    obtain ⟨h, hh, rfl⟩ := List.mem_map.mp hr
    exact List.mem_map.mpr ⟨h, hh, by rw [← h.key_account rebind, of_decide_eq_true hk]⟩
  rw [hsplit, hsplit]
  refine flatMap_eq_of_perm hperm fun a ha b hb hka hkb => ?_
  by_contra hab
  exact hapart a ha b hb hab k (hdeclares a hka) (hdeclares b hkb)

section
variable (hperm : sources.Perm sources')
include hperm

theorem packages_perm :
    (factsOf rebind sources).packages.Perm (factsOf rebind sources').packages := by
  rw [packages_factsOf, packages_factsOf]
  exact hperm.flatMap_right _

theorem definitions_perm : (sources.flatMap definitionsOf).Perm (sources'.flatMap definitionsOf) :=
  hperm.flatMap_right _

theorem tests_perm : (testedFunctions (factsOf rebind sources).records).Perm
    (testedFunctions (factsOf rebind sources').records) :=
  (records_perm rebind hperm).flatMap_right _

/-- The same records have the same numbers of facts. -/
theorem counted_perm :
    (factsOf rebind sources).counted.Perm (factsOf rebind sources').counted := by
  have hfacts := (accounts_perm rebind hperm).filter fun a => 0 < a.facts
  exact (countsRecords_factsOf rebind sources).perm_counted.trans
    (hfacts.trans (countsRecords_factsOf rebind sources').perm_counted.symm)

theorem coverage_perm :
    (factsOf rebind sources).coverage = (factsOf rebind sources').coverage := by
  have hcovered : (factsOf rebind sources).covered.size =
      (factsOf rebind sources').covered.size := by
    have hlen := (counted_perm rebind hperm).length_eq
    rwa [Facts.counted, Facts.counted, List.length_map, List.length_map] at hlen
  rw [Facts.coverage, Facts.coverage, hcovered, found_factsOf, found_factsOf, tested_factsOf,
    tested_factsOf, Tally.size_ofList_perm (definitions_perm hperm),
    Tally.size_ofList_perm (tests_perm rebind hperm)]

theorem size_table_perm :
    (factsOf rebind sources).table.size = (factsOf rebind sources').table.size := by
  have hlen := (keys_table_perm rebind hperm).length_eq
  rwa [Ledger.keys, Ledger.keys, List.length_map, List.length_map] at hlen

theorem function?_perm (hapart : DeclareApart sources) (key : String) :
    (factsOf rebind sources).function? key = (factsOf rebind sources').function? key := by
  rw [(filed_factsOf rebind sources).function?_eq, (filed_factsOf rebind sources').function?_eq,
    filter_key_perm rebind hperm hapart]

/-- The table has the same records, so what is left of all records is the same. -/
theorem duplicates_perm (hapart : DeclareApart sources) :
    ((factsOf rebind sources).duplicates.map (factsOf rebind sources).record).Perm
      ((factsOf rebind sources').duplicates.map (factsOf rebind sources').record) := by
  have htable :
      ((factsOf rebind sources).table.keys.filterMap (factsOf rebind sources).function?).Perm
        ((factsOf rebind sources').table.keys.filterMap (factsOf rebind sources').function?) := by
    rw [funext (function?_perm rebind hperm hapart)]
    exact (keys_table_perm rebind hperm).filterMap _
  have hall := ((filed_factsOf rebind sources).perm_records.trans (records_perm rebind hperm)).trans
    (filed_factsOf rebind sources').perm_records.symm
  exact (List.perm_append_left_iff _).mp (hall.trans (htable.symm.append_right _))

end

/-- **The order of the sources does not matter** to what is counted.  If no function has headers in
two different sources, it does not matter to the table and the duplicates either. -/
theorem factsOf_perm (hperm : sources.Perm sources') :
    (factsOf rebind sources).coverage = (factsOf rebind sources').coverage ∧
      (∀ name, (factsOf rebind sources).found.get? name =
        (factsOf rebind sources').found.get? name) ∧
      (∀ name, (factsOf rebind sources).tested.get? name =
        (factsOf rebind sources').tested.get? name) ∧
      (factsOf rebind sources).packages.Perm (factsOf rebind sources').packages ∧
      (factsOf rebind sources).table.size = (factsOf rebind sources').table.size ∧
      (factsOf rebind sources).duplicates.length = (factsOf rebind sources').duplicates.length ∧
      (factsOf rebind sources).counted.Perm (factsOf rebind sources').counted ∧
      (DeclareApart sources →
        (∀ key, (factsOf rebind sources).function? key = (factsOf rebind sources').function? key) ∧
          ((factsOf rebind sources).duplicates.map (factsOf rebind sources).record).Perm
            ((factsOf rebind sources').duplicates.map (factsOf rebind sources').record)) := by
  refine ⟨coverage_perm rebind hperm, fun name => ?_, fun name => ?_, packages_perm rebind hperm,
    size_table_perm rebind hperm, ?_, counted_perm rebind hperm, fun hapart =>
      ⟨function?_perm rebind hperm hapart, duplicates_perm rebind hperm hapart⟩⟩
  · rw [found_factsOf, found_factsOf, Tally.get?_ofList_perm (definitions_perm hperm)]
  · rw [tested_factsOf, tested_factsOf, Tally.get?_ofList_perm (tests_perm rebind hperm)]
  · -- the duplicates are the records without an entry
    have hcount := (filed_factsOf rebind sources).size_add_length
    have hcount' := (filed_factsOf rebind sources').size_add_length
    have hsize := size_table_perm rebind hperm
    have hlen := (records_perm rebind hperm).length_eq
    omega

/-- Two files that declare apart, one of them with a repeated header, in either order. -/
theorem factsOf_perm_swap :
    let a := ("a.go", "// ThreatSpec M for F\n// Does x for A:b\nfunc F() \x7b\n")
    let b := ("b.py", "# ThreatSpec M for G\n# Tests G for T\n\n# ThreatSpec N for G\ndef G():\n")
    [a, b].Perm [b, a] ∧ DeclareApart [a, b] ∧
      (factsOf true [a, b]).coverage = (factsOf true [b, a]).coverage ∧
      (factsOf true [a, b]).counted.Perm (factsOf true [b, a]).counted ∧
      (∀ key, (factsOf true [a, b]).function? key = (factsOf true [b, a]).function? key) ∧
      ((factsOf true [a, b]).duplicates.map (factsOf true [a, b]).record).Perm
        ((factsOf true [b, a]).duplicates.map (factsOf true [b, a]).record) := by
  intro a b
  have hperm : [a, b].Perm [b, a] := .swap ..
  have hapart : DeclareApart [a, b] := by decide +kernel
  obtain ⟨hcoverage, -, -, -, -, -, hcounted, hcontent⟩ := factsOf_perm true hperm
  exact ⟨hperm, hapart, hcoverage, hcounted, hcontent hapart⟩

end Annotations

end ThreatModel
