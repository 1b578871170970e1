import Mathlib.Data.List.Basic
import Mathlib.Data.List.Induction
import ThreatModel.Proofs.Annotations.Blocks
import ThreatModel.Proofs.Distinct
import ThreatModel.Proofs.Ledger

/-!
# Filing — no record is lost, and none is filed twice

The reader stores the current record behind every line.  It need not: a record's key is settled by
its header, so storing it again changes nothing, and the table and the duplicates are what the
headers alone make of them (`readLinesOnce_eq`).

What they make of them is said of the keys of all records in order of creation.  The table holds
each key at the place of its first record, with its last record (`lastAt`); the duplicates are, for
each record in turn, the one that it took the place of (`displaced`).  `filed_putNew` is the
invariant's step, at a header; `filed_effect` says that other lines leave it alone.
`headers_filed_once` puts the two together for any parses of any files.
-/

namespace ThreatModel

/-! ### Keys in order of creation -/

section
variable {κ : Type} [DecidableEq κ] {k : κ} {ks : List κ} {i : Nat}

/-- The last place of a key in a list of keys. -/
def lastAt (k : κ) : List κ → Option Nat
  | []      => none
  | a :: ks => ((lastAt k ks).map (· + 1)).or (if a = k then some 0 else none)

/-- The places that later places of the same key take over from, in the order of the later ones. -/
def displaced (ks : List κ) : List Nat :=
  (List.range ks.length).filterMap fun j => ks[j]?.bind fun k => lastAt k (ks.take j)

theorem lastAt_concat (k a : κ) (ks : List κ) :
    lastAt k (ks ++ [a]) = if a = k then some ks.length else lastAt k ks := by
  induction ks with
  | nil => rfl
  | cons b ks ih =>
      rw [List.cons_append, lastAt, ih, lastAt, List.length_cons]
      split <;> rfl

/-- The last place of a key holds the key, and no later place does. -/
theorem lastAt_eq_some_iff :
    lastAt k ks = some i ↔ ks[i]? = some k ∧ ∀ j, i < j → ks[j]? ≠ some k := by
  induction ks using List.reverseRecOn with
  | nil => simp [lastAt]
  | append_singleton ks a ih =>
      rw [lastAt_concat]
      by_cases ha : a = k
      · -- the place at the end is the last one
        subst ha
        have hlast : (ks ++ [a])[ks.length]? = some a := List.getElem?_concat_length
        rw [if_pos rfl, Option.some.injEq]
        constructor
        · rintro rfl
          refine ⟨hlast, fun j hj => ?_⟩
          rw [List.getElem?_eq_none (by simpa using Nat.succ_le_of_lt hj)]
          exact nofun
        · rintro ⟨hi, hlater⟩
          have hlt := (List.getElem?_eq_some_iff.mp hi).1
          rw [List.length_append, List.length_singleton] at hlt
          rcases Nat.lt_or_eq_of_le (Nat.le_of_lt_succ hlt) with h | h
          · exact absurd hlast (hlater _ h)
          · exact h.symm
      · have hget : ∀ j : Nat, (ks ++ [a])[j]? = some k ↔ ks[j]? = some k := by
          intro j
          rw [List.getElem?_append]
          split
          · rfl
          · rename_i hj
            rw [List.getElem?_singleton, List.getElem?_eq_none (Nat.le_of_not_lt hj)]
            split <;> simp [ha]
        simp only [if_neg ha, ih, hget, ne_eq]

/-- The keys that come behind take over, if they have the key. -/
theorem lastAt_append (k : κ) (ks ks' : List κ) :
    lastAt k (ks ++ ks') = ((lastAt k ks').map (ks.length + ·)).or (lastAt k ks) := by
  induction ks' using List.reverseRecOn with
  | nil => rw [List.append_nil]; rfl
  | append_singleton ks' a ih =>
      rw [← List.append_assoc, lastAt_concat, lastAt_concat, ih, List.length_append]
      split <;> rfl

theorem lastAt_eq_none_iff : lastAt k ks = none ↔ k ∉ ks := by
  induction ks using List.reverseRecOn with
  | nil => simp [lastAt]
  | append_singleton ks a ih =>
      rw [lastAt_concat, List.mem_append, List.mem_singleton, not_or, ← ih]
      by_cases ha : a = k
      · simp [ha]
      · simp [ha, Ne.symm ha]

theorem displaced_concat (k : κ) (ks : List κ) :
    displaced (ks ++ [k]) = displaced ks ++ (lastAt k ks).toList := by
  -- what an earlier place takes over from is settled by the keys before it
  have hold : ∀ j ∈ List.range ks.length,
      ((ks ++ [k])[j]?.bind fun k' => lastAt k' ((ks ++ [k]).take j)) =
        ks[j]?.bind fun k' => lastAt k' (ks.take j) := by
    intro j hj
    have hlt := List.mem_range.mp hj
    rw [List.getElem?_append_left hlt, List.take_append_of_le_length (Nat.le_of_lt hlt)]
  have hnew : ((ks ++ [k])[ks.length]?.bind fun k' => lastAt k' ((ks ++ [k]).take ks.length)) =
      lastAt k ks := by
    rw [List.getElem?_concat_length, List.take_left]
    rfl
  rw [displaced, List.length_append, List.length_singleton, List.range_succ,
    List.filterMap_append, List.filterMap_congr hold, ← displaced, List.filterMap_cons, hnew]
  cases lastAt k ks <;> rfl

theorem displaced_prefix (ks ks' : List κ) : displaced ks <+: displaced (ks ++ ks') := by
  induction ks' using List.reverseRecOn with
  | nil => simp
  | append_singleton ks' a ih =>
      rw [← List.append_assoc, displaced_concat]
      exact ih.trans (List.prefix_append _ _)

end

namespace Facts

/-- The keys of all records, in order of creation. -/
def recordKeys (f : Facts) : List String := f.records.map FunctionRecord.key

/-- Every record is filed once: in the table, if it is the last one of its key, or else among the
duplicates. -/
structure Filed (f : Facts) : Prop where
  order : f.table.keys = distinct f.recordKeys
  last : ∀ k, f.table.get? k = lastAt k f.recordKeys
  duplicates : f.duplicates = displaced f.recordKeys
  once : (f.table.values ++ f.duplicates).Perm (List.range f.records.length)

variable {f : Facts}

/-- Storing a record where it is stored already does nothing. -/
theorem put_of_get? {key : String} {id : RecordId} (h : f.table.get? key = some id) :
    f.put key id = f := by
  simp [put, h, Ledger.insert_of_get? h]

theorem filed_empty : empty.Filed where
  order := rfl
  last _ := rfl
  duplicates := rfl
  once := .refl _

/-- The entries and the duplicates together count the records. -/
theorem Filed.size_add_length (h : f.Filed) :
    f.table.size + f.duplicates.length = f.records.length := by
  have hlen := h.once.length_eq
  rw [List.length_append, List.length_range] at hlen
  rw [← hlen, Ledger.size, Ledger.values, List.length_map]

/-- What is in the table or among the duplicates are all records. -/
theorem Filed.mem_iff (h : f.Filed) {id : RecordId} :
    id ∈ f.table.values ++ f.duplicates ↔ id < f.records.length := by
  rw [h.once.mem_iff, List.mem_range]

/-- Every entry stands under its own key. -/
theorem Filed.key_of_mem (h : f.Filed) {k : String} {id : RecordId}
    (hmem : (k, id) ∈ f.table.toList) : (f.record id).key = k := by
  rw [Ledger.mem_toList_iff, h.last, lastAt_eq_some_iff, recordKeys, List.getElem?_map] at hmem
  obtain ⟨r, hr, hkey⟩ := Option.map_eq_some_iff.mp hmem.1
  rw [record, List.getD_eq_getElem?_getD, hr]
  exact hkey

/-- Whether records are filed depends on their keys only. -/
theorem Filed.of_recordKeys {g : Facts} (h : f.Filed) (htable : g.table = f.table)
    (hdup : g.duplicates = f.duplicates) (hkeys : g.recordKeys = f.recordKeys) : g.Filed where
  order := by rw [htable, hkeys, h.order]
  last k := by rw [htable, hkeys, h.last]
  duplicates := by rw [hdup, hkeys, h.duplicates]
  once := by
    have hlen : g.records.length = f.records.length := by
      simpa [recordKeys] using congrArg List.length hkeys
    rw [htable, hdup, hlen]
    exact h.once

/-- The table and the duplicates are settled by the keys of the records. -/
theorem Filed.eq_of_recordKeys {g : Facts} (h : f.Filed) (hg : g.Filed)
    (hkeys : f.recordKeys = g.recordKeys) :
    f.table = g.table ∧ f.duplicates = g.duplicates := by
  refine ⟨Ledger.eq_of_get? ?_ fun k => ?_, ?_⟩
  · rw [h.order, hg.order, hkeys]
  · rw [h.last, hg.last, hkeys]
  · rw [h.duplicates, hg.duplicates, hkeys]

/-- **A new record is filed**, and the one whose place it takes joins the duplicates. -/
theorem filed_putNew (h : f.Filed) (r : FunctionRecord) : (f.putNew r.key r).Filed := by
  have hkeys : (f.putNew r.key r).recordKeys = f.recordKeys ++ [r.key] := List.map_append
  have hlen : f.recordKeys.length = f.records.length := List.length_map _
  -- an id in the table is older than the new one, so an entry there is displaced
  have hdup : (f.putNew r.key r).duplicates = f.duplicates ++ (f.table.get? r.key).toList := by
    have hold : (f.table.get? r.key).filter (· ≠ f.records.length) = f.table.get? r.key := by
      cases hget : f.table.get? r.key with
      | none => rfl
      | some id =>
          rw [h.last, lastAt_eq_some_iff] at hget
          have hlt := (List.getElem?_eq_some_iff.mp hget.1).1
          simp [Option.filter, Nat.ne_of_lt (hlen ▸ hlt)]
    exact (duplicates_put _ r.key f.records.length).trans (congrArg _ (congrArg _ hold))
  refine ⟨?_, fun k => ?_, ?_, ?_⟩
  · have hmem : r.key ∈ f.table.keys ↔ r.key ∈ f.recordKeys := by rw [h.order, mem_distinct_iff]
    rw [hkeys, distinct_concat, ← h.order]
    exact (Ledger.keys_insert ..).trans (by simp only [hmem])
  · rw [hkeys, lastAt_concat, ← h.last, hlen]
    exact Ledger.get?_insert ..
  · rw [hkeys, displaced_concat, ← h.duplicates, ← h.last, hdup]
  · have hlength : (f.putNew r.key r).records.length = f.records.length + 1 := List.length_append
    rw [hdup, hlength, List.range_succ]
    -- the new id goes into the table, and the one it displaces goes over to the duplicates
    have hin : ((f.putNew r.key r).table.values ++ (f.table.get? r.key).toList).Perm
        (f.table.values ++ [f.records.length]) := Ledger.values_insert ..
    have hswap : ((f.putNew r.key r).table.values ++
        (f.duplicates ++ (f.table.get? r.key).toList)).Perm
          ((f.putNew r.key r).table.values ++ (f.table.get? r.key).toList ++ f.duplicates) := by
      rw [List.append_assoc]
      exact List.perm_append_comm.append_left _
    have hback : (f.table.values ++ [f.records.length] ++ f.duplicates).Perm
        (f.table.values ++ f.duplicates ++ [f.records.length]) := by
      rw [List.append_assoc, List.append_assoc]
      exact List.perm_append_comm.append_left _
    exact hswap.trans ((hin.append_right _).trans (hback.trans (h.once.append_right _)))

end Facts

namespace Annotations

/-! ### What headers open -/

/-- The record that a line opens, if it is a header. -/
def heading? (package : Option Package) (line : String) : Option FunctionRecord :=
  if isHeader line then
    (Form.header.pattern.match? line).map fun m =>
      { model := m.get .model, function := m.get .function, package := package, raw := line }
  else none

/-- The records that lines open, if `package` is the one in effect above them. -/
def headings (package : Option Package) : List String → List FunctionRecord
  | []            => []
  | line :: lines =>
    (heading? package line).toList ++ headings ((packageIn? line).or package) lines

variable {l : Language} {inBlock : Bool} {line : String} {st : Statement}

theorem record?_of_statement? (package : Option Package)
    (h : statement? rules l inBlock line = some st) :
    st.record? package line = heading? package line := by
  cases hh : isHeader line with
  | true =>
      obtain ⟨st', hst', hs⟩ := statement?_of_isHeader l inBlock hh
      obtain ⟨m, hm, rfl⟩ := Option.map_eq_some_iff.mp hst'
      obtain rfl := Option.some.inj (h.symm.trans hs)
      rw [heading?, hh, hm]
      rfl
  | false =>
      have hform := form?_ne_header h hh
      rw [heading?, hh]
      cases st with
      | header => exact absurd rfl hform
      | _ => rfl

/-! ### Storing behind every line -/

/-- If there is a current record, the table has it under its key. -/
def State.Stored (s : State) : Prop :=
  ∀ id, s.current = some id →
    id < s.facts.records.length ∧ s.facts.table.get? (s.facts.record id).key = some id

namespace State

variable {s : State} {file raw : String}

theorem store_of_stored (h : s.Stored) : s.store = s := by
  rw [store]
  split
  · rename_i id hcur
    rw [Facts.put_of_get? (h id hcur).2]
  · rfl

theorem stored_start (file : String) (facts : Facts) : (start file facts).Stored := nofun

theorem stored_endBlock (h : s.Stored) (rebind : Bool) : (s.endBlock rebind).Stored := by
  intro id hid
  cases rebind with
  | true => exact h id hid
  | false => cases hid

/-- A statement that opens no record leaves the current one and its key. -/
theorem stored_apply (h : s.Stored) (hform : st.form? ≠ some .header) :
    (s.apply file raw st).Stored := by
  intro id hid
  have htable : (s.apply file raw st).facts.table = s.facts.table := by rw [apply_eq]
  rw [apply_eq] at hid
  have hcur : s.current = some id := (if_neg hform).symm.trans hid
  obtain ⟨hlt, hget⟩ := h id hcur
  rw [htable, record_apply _ _ _ _ hlt, if_pos hcur, Statement.key_addTo, records_apply,
    List.length_append, length_onCurrent]
  exact ⟨Nat.lt_add_right _ hlt, hget⟩

/-- A statement that opens no record changes no key. -/
theorem filed_apply (h : s.facts.Filed) (hform : st.form? ≠ some .header) :
    (s.apply file raw st).facts.Filed := by
  have hnone : st.record? s.package raw = none := by
    cases st with
    | header => exact absurd rfl hform
    | _ => rfl
  rw [apply_eq]
  refine h.of_recordKeys rfl rfl ?_
  rw [Facts.recordKeys, hnone, Option.toList_none, List.append_nil]
  exact s.map_onCurrent fun _ => Statement.key_addTo

/-- A header's record becomes the current one and is stored. -/
theorem facts_store_header (s : State) (file raw model function : String) :
    ((s.apply file raw (.header model function)).store).facts =
      let new := { model := model, function := function, package := s.package, raw := raw }
      s.facts.putNew new.key new := by
  have hnew := Facts.record_add s.facts
    { model := model, function := function, package := s.package, raw := raw }
    s.facts.records.length
  rw [if_pos rfl] at hnew
  exact congrArg (fun r => Facts.put _ (FunctionRecord.key r) _) hnew

theorem stored_store (h : ∀ id, s.current = some id → id < s.facts.records.length) :
    s.store.Stored := by
  intro id hid
  rw [current_store] at hid
  rw [records_store, record_store]
  refine ⟨h id hid, ?_⟩
  rw [store, hid]
  exact (Ledger.get?_insert ..).trans (if_pos rfl)

end State

namespace Reader

/-- What a line does to the state before the current record is stored. -/
def effect (r : Reader) (file : String) (s : State) (line : String) : State :=
  let s := { s with line := s.line + 1 }
  match statement? r.order (Language.ofFileName file) s.inBlock line with
  | some st => s.apply file line st
  | none    => s.endBlock r.rebind

/-- The reader takes the line for a header. -/
def Opens (r : Reader) (file : String) (s : State) (line : String) : Prop :=
  (statement? r.order (Language.ofFileName file) s.inBlock line).bind Statement.form? = some .header

instance (r : Reader) (file : String) (s : State) (line : String) :
    Decidable (r.Opens file s line) :=
  inferInstanceAs (Decidable (_ = _))

/-- Reads one line as `step` does, but stores a record only behind its header. -/
def stepOnce (r : Reader) (file : String) (s : State) (line : String) : State :=
  if r.Opens file s line then (r.effect file s line).store else r.effect file s line

/-- Reads the lines of a file as `readLines` does, but stores records only behind headers. -/
def readLinesOnce (r : Reader) (file : String) (facts : Facts) (lines : List String) :
    Facts × List Event :=
  let s := lines.foldl (r.stepOnce file) (.start file facts)
  (s.facts, s.events)

variable {r : Reader} {s : State} {file : String}

theorem effect_of_opens (h : r.Opens file s line) : ∃ m g, r.effect file s line =
    ({ s with line := s.line + 1 } : State).apply file line (.header m g) := by
  obtain ⟨st, hst, hform⟩ := Option.bind_eq_some_iff.mp h
  cases st with
  | header m g => exact ⟨m, g, by rw [effect, hst]⟩
  | _ => cases hform

/-- A line that is no header leaves the current record, its key and its entry. -/
theorem stored_effect (h : s.Stored) (hopens : ¬ r.Opens file s line) :
    (r.effect file s line).Stored := by
  rw [Opens] at hopens
  rw [effect]
  split
  · rename_i st hst
    exact State.stored_apply h fun hform => hopens (by rw [hst]; exact hform)
  · exact State.stored_endBlock h r.rebind

/-- A line that is no header changes no key. -/
theorem filed_effect (h : s.facts.Filed) (hopens : ¬ r.Opens file s line) :
    (r.effect file s line).facts.Filed := by
  rw [Opens] at hopens
  rw [effect]
  split
  · rename_i st hst
    exact State.filed_apply h fun hform => hopens (by rw [hst]; exact hform)
  · exact h

/-- **Storing a record behind every line is storing it behind its header.** -/
theorem step_eq_stepOnce (h : s.Stored) : r.step file s line = r.stepOnce file s line := by
  rw [stepOnce]
  split
  · rfl
  · rename_i hopens
    exact State.store_of_stored (stored_effect h hopens)

theorem stored_step (h : s.Stored) : (r.step file s line).Stored := by
  rw [step_eq_stepOnce h, stepOnce]
  split
  · rename_i hopens
    obtain ⟨m, g, heffect⟩ := effect_of_opens hopens
    refine State.stored_store fun id hid => ?_
    rw [heffect] at hid ⊢
    obtain rfl : s.facts.records.length = id := Option.some.inj hid
    rw [State.records_apply, List.length_append, State.length_onCurrent]
    exact Nat.lt_succ_self _
  · rename_i hopens
    exact stored_effect h hopens

theorem stored_foldl (lines : List String) (h : s.Stored) :
    (lines.foldl (r.step file) s).Stored :=
  lines.foldlRecOn _ h fun _ h _ _ => stored_step h

/-- **What a step does to a part of a record**, if headers leave that part blank: it changes that of
the current record only, by the statement of the line. -/
theorem view_step {β : Type} (view : FunctionRecord → β)
    (hblank : ∀ r : FunctionRecord, view r.opened = view default) (hs : s.Stored)
    {st? : Option Statement}
    (h : statement? r.order (Language.ofFileName file) s.inBlock line = st?) (id : RecordId) :
    view ((r.step file s line).facts.record id) =
      if s.current = some id then
        st?.elim (view (s.facts.record id)) fun st =>
          view (st.addTo file (s.line + 1 : Nat) (s.facts.record id))
      else view (s.facts.record id) := by
  rcases Nat.lt_or_ge id s.facts.records.length with hid | hid
  · cases st? with
    | none =>
        rw [Facts.record, records_step_of_none h, Option.elim_none, ite_self]
        rfl
    | some st =>
        rw [record_step_of_some h hid, Option.elim_some]
        split <;> rfl
  · -- a record that is not there is not the current one, and blank in that part once it is
    have hcur : s.current ≠ some id := fun h => Nat.not_lt_of_le hid (hs id h).1
    have hold : s.facts.record id = default := by
      rw [Facts.record, List.getD_eq_getElem?_getD, List.getElem?_eq_none hid]
      rfl
    rw [if_neg hcur, hold, ← opened_step_of_le hid, hblank]

/-- Records stay filed line by line. -/
theorem filed_step (hf : s.facts.Filed) (h : s.Stored) : (r.step file s line).facts.Filed := by
  rw [step_eq_stepOnce h, stepOnce]
  split
  · rename_i hopens
    obtain ⟨m, g, heffect⟩ := effect_of_opens hopens
    rw [heffect, State.facts_store_header]
    exact Facts.filed_putNew hf _
  · rename_i hopens
    exact filed_effect hf hopens

/-! ### Runs -/

theorem foldl_stepOnce (lines : List String) (h : s.Stored) :
    lines.foldl (r.stepOnce file) s = lines.foldl (r.step file) s := by
  induction lines generalizing s with
  | nil => rfl
  | cons line lines ih =>
      rw [List.foldl_cons, List.foldl_cons, ← step_eq_stepOnce h, ih (stored_step h)]

theorem filed_foldl (lines : List String) (hf : s.facts.Filed) (h : s.Stored) :
    (lines.foldl (r.step file) s).facts.Filed := by
  induction lines generalizing s with
  | nil => exact hf
  | cons line lines ih => exact ih (filed_step hf h) (stored_step h)

theorem readLinesOnce_eq (r : Reader) (file : String) (facts : Facts) (lines : List String) :
    r.readLinesOnce file facts lines = r.readLines file facts lines := by
  have h : lines.foldl (r.stepOnce file) (.start file facts) =
      lines.foldl (r.step file) (.start file facts) :=
    foldl_stepOnce lines (State.stored_start file facts)
  rw [readLinesOnce, h]
  rfl

theorem filed_readLines (r : Reader) (file : String) {facts : Facts} (h : facts.Filed)
    (lines : List String) : (r.readLines file facts lines).1.Filed :=
  filed_foldl lines h (State.stored_start file facts)

/-- A line opens a record if it is a header, and leaves what headers gave the others. -/
theorem opened_records_step {rebind : Bool} :
    ((usual rebind).step file s line).facts.records.map FunctionRecord.opened =
      s.facts.records.map FunctionRecord.opened ++ (heading? s.package line).toList := by
  cases hst : statement? rules (Language.ofFileName file) s.inBlock line with
  | some st =>
      have hopened : ((heading? s.package line).toList).map FunctionRecord.opened =
          (heading? s.package line).toList := by
        rw [heading?]
        split
        · cases Form.header.pattern.match? line <;> rfl
        · rfl
      rw [records_step_of_some hst, List.map_append, record?_of_statement? s.package hst, hopened,
        State.map_onCurrent _ fun _ => Statement.opened_addTo]
  | none =>
      rw [records_step_of_none hst, heading?, isHeader_eq_false hst]
      exact (List.append_nil _).symm

theorem opened_records_foldl {rebind : Bool} (lines : List String) :
    (lines.foldl ((usual rebind).step file) s).facts.records.map FunctionRecord.opened =
      s.facts.records.map FunctionRecord.opened ++ headings s.package lines := by
  induction lines generalizing s with
  | nil => exact (List.append_nil _).symm
  | cons line lines ih =>
      rw [List.foldl_cons, ih, opened_records_step, package_step, headings, List.append_assoc]

end Reader

/-! ### Several files -/

/-- One parse of a file. -/
structure Parse where
  /-- Definitions and calls go to a record behind its block. -/
  rebind : Bool
  file : String
  text : String
deriving DecidableEq, Repr

/-- Parses files into the facts there are. -/
def parseAll (facts : Facts) (ps : List Parse) : Facts :=
  ps.foldl (fun facts p => ((Reader.usual p.rebind).readSource facts p.file p.text).1) facts

/-- Parses files as `parseAll` does, but stores records only behind headers. -/
def parseAllOnce (facts : Facts) (ps : List Parse) : Facts :=
  ps.foldl (fun facts p =>
    ((Reader.usual p.rebind).readLinesOnce p.file facts (Reader.linesOf p.text)).1) facts

/-- One reader's sources are parses with its rebinding. -/
theorem readSources_eq_parseAll (rebind : Bool) (facts : Facts) (sources : List (String × String)) :
    ((Reader.usual rebind).readSources facts sources).1 =
      parseAll facts (sources.map fun (file, text) => ⟨rebind, file, text⟩) := by
  induction sources generalizing facts with
  | nil => rfl
  | cons source sources ih => exact ih _

theorem parseAllOnce_eq (facts : Facts) (ps : List Parse) :
    parseAllOnce facts ps = parseAll facts ps := by
  simp only [parseAllOnce, parseAll, Reader.readLinesOnce_eq, Reader.readSource]

theorem filed_parseAll {facts : Facts} (h : facts.Filed) (ps : List Parse) :
    (parseAll facts ps).Filed := by
  induction ps generalizing facts with
  | nil => exact h
  | cons p ps ih => exact ih (Reader.filed_readLines _ p.file h _)

theorem opened_records_parseAll (facts : Facts) (ps : List Parse) :
    (parseAll facts ps).records.map FunctionRecord.opened =
      facts.records.map FunctionRecord.opened ++
        ps.flatMap fun p => headings none (Reader.linesOf p.text) := by
  induction ps generalizing facts with
  | nil => exact (List.append_nil _).symm
  | cons p ps ih =>
      rw [List.flatMap_cons, ← List.append_assoc]
      exact (ih _).trans (congrArg (· ++ _) (Reader.opened_records_foldl _))

/-- **Every header's record is filed, and once**, after every line of every parse.  The records are
those of the headers read so far; storing the current one behind each line makes no difference. -/
theorem headers_filed_once (ps : List Parse) (rebind : Bool) (file : String) (lines : List String) :
    let facts := ((Reader.usual rebind).readLines file (parseAll .empty ps) lines).1
    facts.records.map FunctionRecord.opened =
        (ps.flatMap fun p => headings none (Reader.linesOf p.text)) ++ headings none lines ∧
      facts.Filed ∧
      facts.table.size + facts.duplicates.length = facts.records.length ∧
      (∀ k id, (k, id) ∈ facts.table.toList → (facts.record id).key = k) ∧
      (Reader.usual rebind).readLinesOnce file (parseAllOnce .empty ps) lines =
        (Reader.usual rebind).readLines file (parseAll .empty ps) lines := by
  have hfiled := Reader.filed_readLines (Reader.usual rebind) file
    (filed_parseAll Facts.filed_empty ps) lines
  refine ⟨?_, hfiled, hfiled.size_add_length, fun _ _ => hfiled.key_of_mem, ?_⟩
  · exact (Reader.opened_records_foldl lines).trans
      (congrArg (· ++ _) (opened_records_parseAll .empty ps))
  · rw [Reader.readLinesOnce_eq, parseAllOnce_eq]

/-- A header of another file takes the entry of its function over. -/
example :
    let facts := parseAll .empty
      [⟨true, "a.go", "// ThreatSpec M for F"⟩, ⟨false, "b.py", "# ThreatSpec N for F"⟩]
    facts.table.toList = [("F", 1)] ∧ facts.duplicates = [0] := by
  decide +kernel

end Annotations

end ThreatModel
