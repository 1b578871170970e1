import ThreatModel.Proofs.Annotations.Tallies

/-!
# Accumulation — nothing that was read is taken back

Whatever is read later, packages and duplicates come at the end, tallies keep their keys in place
and count up, and records keep what their headers gave them and get more of the rest
(`Facts.Grows`).  A step grows the facts (`Reader.grows_step`), and so does any run.

Only the current record changes at all, and of what it has only the site is replaced.  The table
keeps its keys in place; the entry of a key is replaced by the record of a later header of the key,
and by nothing else (`Facts.Filed.get?_of_recordKeys`).

* `facts_accumulate`: the facts at any line of any file, and those after any more lines of it and
  any more files.
-/

namespace ThreatModel

namespace Tally

variable {κ : Type} [DecidableEq κ] {t t' : Tally κ}

/-- The keys keep their places, and no count goes down. -/
structure Grows (t t' : Tally κ) : Prop where
  keys : t.keys <+: t'.keys
  count : ∀ k, t.count k ≤ t'.count k

namespace Grows

theorem refl (t : Tally κ) : t.Grows t := ⟨List.prefix_rfl, fun _ => Nat.le_refl _⟩

theorem trans {t'' : Tally κ} (h : t.Grows t') (h' : t'.Grows t'') : t.Grows t'' :=
  ⟨h.keys.trans h'.keys, fun k => Nat.le_trans (h.count k) (h'.count k)⟩

theorem bump (t : Tally κ) (k : κ) : t.Grows (t.bump k) where
  keys := by
    rw [Tally.bump, Ledger.keys_alter]
    split
    · exact List.prefix_rfl
    · exact List.prefix_append _ _
  count k' := by
    rw [count_bump]
    exact Nat.le_add_right ..

theorem countIf (t : Tally κ) (k? : Option κ) : t.Grows (Annotations.countIf t k?) := by
  cases k? with
  | none => exact refl t
  | some k => exact bump t k

end Grows

end Tally

namespace FunctionRecord
open Annotations

/-- What the header gave a record is the same, and there is more of what was added to it.  A site
may be replaced, but does not go away. -/
structure Extends (r r' : FunctionRecord) : Prop where
  model : r'.model = r.model
  function : r'.function = r.function
  package : r'.package = r.package
  raw : r'.raw = r.raw
  mitigations : r.mitigations <+: r'.mitigations
  exposures : r.exposures <+: r'.exposures
  capabilities : r.capabilities <+: r'.capabilities
  flows : r.flows <+: r'.flows
  tests : r.tests <+: r'.tests
  calls : r.calls <+: r'.calls
  site : r.site.isSome → r'.site.isSome

namespace Extends

variable {r r' : FunctionRecord}

theorem refl (r : FunctionRecord) : r.Extends r := by
  constructor <;> first | rfl | exact List.prefix_rfl | exact id

theorem trans {r'' : FunctionRecord} (h : r.Extends r') (h' : r'.Extends r'') : r.Extends r'' where
  model := h'.model.trans h.model
  function := h'.function.trans h.function
  package := h'.package.trans h.package
  raw := h'.raw.trans h.raw
  mitigations := h.mitigations.trans h'.mitigations
  exposures := h.exposures.trans h'.exposures
  capabilities := h.capabilities.trans h'.capabilities
  flows := h.flows.trans h'.flows
  tests := h.tests.trans h'.tests
  calls := h.calls.trans h'.calls
  site hr := h'.site (h.site hr)

/-- A statement adds to one of the lists of a record, or gives it a site. -/
theorem addTo (st : Statement) (file : String) (line : Int) (r : FunctionRecord) :
    r.Extends (st.addTo file line r) := by
  cases st with
  | package | header => exact refl r
  | mitigation f => exact { refl r with mitigations := List.prefix_append _ _ }
  | exposure f => exact { refl r with exposures := List.prefix_append _ _ }
  | capability c => exact { refl r with capabilities := List.prefix_append _ _ }
  | flow f => exact { refl r with flows := List.prefix_append _ _ }
  | test t => exact { refl r with tests := List.prefix_append _ _ }
  | calls cs => exact { refl r with calls := List.prefix_append _ _ }
  | definition f c =>
      rw [Statement.addTo]
      split
      · exact { refl r with site := fun _ => rfl }
      · exact refl r

end Extends

end FunctionRecord

namespace Facts

variable {f f' : Facts}

/-- Nothing is taken back: packages come at the end, the tallies count up, and each record is there
with all it had. -/
structure Grows (f f' : Facts) : Prop where
  packages : f.packages <+: f'.packages
  found : f.found.Grows f'.found
  covered : f.covered.Grows f'.covered
  tested : f.tested.Grows f'.tested
  records : ∀ id < f.records.length,
    id < f'.records.length ∧ (f.record id).Extends (f'.record id)

namespace Grows

theorem refl (f : Facts) : f.Grows f where
  packages := List.prefix_rfl
  found := .refl _
  covered := .refl _
  tested := .refl _
  records _ hid := ⟨hid, .refl _⟩

theorem trans {f'' : Facts} (h : f.Grows f') (h' : f'.Grows f'') : f.Grows f'' where
  packages := h.packages.trans h'.packages
  found := h.found.trans h'.found
  covered := h.covered.trans h'.covered
  tested := h.tested.trans h'.tested
  records id hid :=
    have ⟨hid', hr⟩ := h.records id hid
    have ⟨hid'', hr'⟩ := h'.records id hid'
    ⟨hid'', hr.trans hr'⟩

end Grows

/-! ### Entries -/

/-- **Headers that come later take over the entries of their keys, and no others.** -/
theorem Filed.get?_of_recordKeys (h : f.Filed) (h' : f'.Filed) {declared : List String}
    (hkeys : f'.recordKeys = f.recordKeys ++ declared) (k : String) :
    (k ∉ declared → f'.table.get? k = f.table.get? k) ∧
      (k ∈ declared → ∃ id, f.records.length ≤ id ∧ f'.table.get? k = some id) := by
  rw [h.last, h'.last, hkeys, lastAt_append]
  have hlen : f.recordKeys.length = f.records.length := List.length_map _
  refine ⟨fun hk => ?_, fun hk => ?_⟩
  · rw [lastAt_eq_none_iff.mpr hk]
    rfl
  · cases hlast : lastAt k declared with
    | none => exact absurd hk (lastAt_eq_none_iff.mp hlast)
    | some i => exact ⟨_, hlen ▸ Nat.le_add_right .., rfl⟩

/-- What is read behind some facts, with headers of the keys `declared`, leaves of them what it
cannot change; `current` is the record that it may still add to. -/
structure Accumulates (declared : List String) (current : Option RecordId) (f f' : Facts) :
    Prop where
  packages : f.packages <+: f'.packages
  duplicates : f.duplicates <+: f'.duplicates
  keys : f.table.keys <+: f'.table.keys
  found : f.found.Grows f'.found
  covered : f.covered.Grows f'.covered
  tested : f.tested.Grows f'.tested
  /-- Each record of the table or the duplicates is still in one of them, with all it had. -/
  present : ∀ id ∈ f.table.values ++ f.duplicates,
    id ∈ f'.table.values ++ f'.duplicates ∧ (f.record id).Extends (f'.record id)
  /-- The other records are as they were, with their sites. -/
  others : ∀ id ∈ f.table.values ++ f.duplicates, current ≠ some id → f'.record id = f.record id
  /-- A key that is not declared again keeps its record. -/
  kept : ∀ k, k ∉ declared → f'.table.get? k = f.table.get? k
  /-- A key that is declared again has a new record. -/
  replaced : ∀ k ∈ declared, ∃ id, f.records.length ≤ id ∧ f'.table.get? k = some id

theorem Grows.accumulates (hgrows : f.Grows f') (h : f.Filed) (h' : f'.Filed)
    {declared : List String} (hkeys : f'.recordKeys = f.recordKeys ++ declared)
    {current : Option RecordId}
    (hothers : ∀ id < f.records.length, current ≠ some id → f'.record id = f.record id) :
    f.Accumulates declared current f' where
  packages := hgrows.packages
  duplicates := by
    rw [h.duplicates, h'.duplicates, hkeys]
    exact displaced_prefix ..
  keys := by
    rw [h.order, h'.order, hkeys]
    exact distinct_prefix ..
  found := hgrows.found
  covered := hgrows.covered
  tested := hgrows.tested
  present id hid := by
    rw [h'.mem_iff]
    exact hgrows.records id (h.mem_iff.mp hid)
  others id hid := hothers id (h.mem_iff.mp hid)
  kept k := (h.get?_of_recordKeys h' hkeys k).1
  replaced k := (h.get?_of_recordKeys h' hkeys k).2

end Facts

namespace Annotations

namespace Reader

variable {r : Reader} {rebind : Bool} {file line : String} {s : State} {id : RecordId}

/-- **A step takes nothing back.** -/
theorem grows_step (r : Reader) (file : String) (s : State) (line : String) :
    s.facts.Grows (r.step file s line).facts := by
  refine ⟨?_, ?_, ?_, ?_, fun id hid => ?_⟩
  · rw [(counts_step rfl).1]
    exact List.prefix_append _ _
  · rw [(counts_step rfl).2.1]
    exact .countIf _ _
  · rw [(counts_step rfl).2.2.1]
    exact .countIf _ _
  · rw [(counts_step rfl).2.2.2]
    exact .countIf _ _
  · cases hst : statement? r.order (Language.ofFileName file) s.inBlock line with
    | none =>
        rw [Facts.record, Facts.record, records_step_of_none hst]
        exact ⟨hid, .refl _⟩
    | some st =>
        rw [record_step_of_some hst hid, records_step_of_some hst, List.length_append,
          State.length_onCurrent]
        refine ⟨Nat.lt_add_right _ hid, ?_⟩
        split
        · exact .addTo ..
        · exact .refl _

/-- A run of lines takes nothing back. -/
theorem grows_foldl (r : Reader) (file : String) (s : State) (lines : List String) :
    s.facts.Grows (lines.foldl (r.step file) s).facts :=
  lines.foldlRecOn (motive := fun s' : State => s.facts.Grows s'.facts) _ (.refl _)
    fun _ h line _ => h.trans (grows_step r file _ line)

theorem recordKeys_foldl (lines : List String) :
    (lines.foldl ((usual rebind).step file) s).facts.recordKeys =
      s.facts.recordKeys ++ (headings s.package lines).map FunctionRecord.key := by
  have hopened : (lines.foldl ((usual rebind).step file) s).facts.records.map
      FunctionRecord.opened = _ := opened_records_foldl lines
  have hkeys := congrArg (List.map FunctionRecord.key) hopened
  rwa [List.map_append, List.map_map, List.map_map] at hkeys

end Reader

theorem grows_parseAll (facts : Facts) (ps : List Parse) : facts.Grows (parseAll facts ps) :=
  ps.foldlRecOn (motive := fun facts' : Facts => facts.Grows facts') _ (.refl _)
    fun facts' h p _ => h.trans (Reader.grows_foldl _ p.file (.start p.file facts') _)

theorem recordKeys_parseAll (facts : Facts) (ps : List Parse) :
    (parseAll facts ps).recordKeys = facts.recordKeys ++
      (ps.flatMap fun p => headings none (Reader.linesOf p.text)).map FunctionRecord.key := by
  have hopened := congrArg (List.map FunctionRecord.key) (opened_records_parseAll facts ps)
  rwa [List.map_append, List.map_map, List.map_map] at hopened

/-- Other files leave the records alone. -/
theorem record_parseAll_of_lt {facts : Facts} (ps : List Parse) {id : RecordId}
    (hid : id < facts.records.length) : (parseAll facts ps).record id = facts.record id := by
  induction ps generalizing facts with
  | nil => rfl
  | cons p ps ih =>
      have hgrows := Reader.grows_foldl (.usual p.rebind) p.file (.start p.file facts)
        (Reader.linesOf p.text)
      have hsame : ((Reader.linesOf p.text).foldl ((Reader.usual p.rebind).step p.file)
          (.start p.file facts)).facts.account id = facts.account id :=
        Reader.account_foldl_of_ne (s := .start p.file facts) _ hid nofun
      exact (ih (hgrows.records id hid).1).trans (congrArg Account.record hsame)

/-- **Facts only accumulate.**  Take the facts at any line of any file, behind any parses of files,
and read any more lines of the file and any more files: only the current record is added to, only
its site is replaced, and the table gives only the keys of the new headers to other records. -/
theorem facts_accumulate (ps : List Parse) (rebind : Bool) (file : String)
    (lines more : List String) (qs : List Parse) :
    let before := lines.foldl ((Reader.usual rebind).step file) (.start file (parseAll .empty ps))
    let after := parseAll (more.foldl ((Reader.usual rebind).step file) before).facts qs
    let declared := (headings before.package more ++
      qs.flatMap fun q => headings none (Reader.linesOf q.text)).map FunctionRecord.key
    before.facts.Accumulates declared before.current after := by
  intro before after declared
  have hfiled : before.facts.Filed := Reader.filed_foldl lines
    (filed_parseAll Facts.filed_empty ps) (State.stored_start file _)
  have hstored : before.Stored := Reader.stored_foldl lines (State.stored_start file _)
  have hmore := Reader.grows_foldl (.usual rebind) file before more
  refine (hmore.trans (grows_parseAll _ qs)).accumulates hfiled
    (filed_parseAll (Reader.filed_foldl more hfiled hstored) qs) ?_ fun id hid hcur => ?_
  · rw [recordKeys_parseAll, Reader.recordKeys_foldl, List.append_assoc, ← List.map_append]
  · have hsame : (more.foldl ((Reader.usual rebind).step file) before).facts.account id =
        before.facts.account id := Reader.account_foldl_of_ne more hid hcur
    exact (record_parseAll_of_lt qs (hmore.records id hid).1).trans
      (congrArg Account.record hsame)

/-- A second definition gives the current record another site, and a second header of the function
takes its entry over. -/
example :
    let facts := fun text => parseAll .empty [⟨true, "a.go", text⟩]
    let first := "// ThreatSpec M for F\nfunc F() \x7b\n"
    let second := first ++ "func F() \x7b\n"
    let third := second ++ "// ThreatSpec N for F\n"
    ((facts first).record 0).site.map CodeSite.line = some 2 ∧
      ((facts second).record 0).site.map CodeSite.line = some 3 ∧
      (facts second).table.toList = [("F", 0)] ∧
      (facts third).table.toList = [("F", 1)] ∧ (facts third).duplicates = [0] := by
  decide +kernel

end Annotations

end ThreatModel
