import ThreatModel.Proofs.Annotations.Attachment
import ThreatModel.Proofs.Annotations.Coverage

/-!
# Covered — the records that facts are counted for

What is counted for a record are the facts of its blocks and the lines that declare calls for it
(`Facts.Conserves`), and its calls are those that these lines name (`Facts.HoldsCalls`).  So a
record is counted if it is annotated, that is, if one of its six lists has an entry; and it is
counted as well if a line declares calls for it that names nothing to be called (`covered_iff`).
-/

namespace ThreatModel

/-- The record holds a fact. -/
def FunctionRecord.IsAnnotated (r : FunctionRecord) : Prop :=
  r.mitigations ≠ [] ∨ r.exposures ≠ [] ∨ r.capabilities ≠ [] ∨ r.flows ≠ [] ∨ r.tests ≠ [] ∨
    r.calls ≠ []

instance (r : FunctionRecord) : Decidable r.IsAnnotated :=
  inferInstanceAs (Decidable (_ ∨ _ ∨ _ ∨ _ ∨ _ ∨ _))

theorem FunctionRecord.isAnnotated_iff {r : FunctionRecord} :
    r.IsAnnotated ↔ 0 < r.factCount ∨ r.calls ≠ [] := by
  simp only [IsAnnotated, factCount, ← List.length_pos_iff]
  omega

namespace Annotations

variable {line : String} {id : RecordId} {read : List (Option RecordId × String)} {f : Facts}

/-! ### Lines that declare calls -/

/-- The line declares calls, but has only blanks where their names should be. -/
def callsNothing (line : String) : Bool :=
  (Form.calls.pattern.match? line).any fun m => (m.get .functions).toList.all Text.isBlank

/-- A line declares calls if it names some, or calls nothing. -/
theorem declaresCalls_iff :
    declaresCalls line = true ↔ callsIn line ≠ [] ∨ callsNothing line = true := by
  rw [declaresCalls, Form.read?, Option.isSome_map, callsIn, callsNothing]
  cases Form.calls.pattern.match? line with
  | none => simp
  | some m =>
      have hwords : declaredCalls (m.get .functions) line = [] ↔
          (m.get .functions).toList.all Text.isBlank = true := by
        rw [declaredCalls, List.map_eq_nil_iff, Text.words_eq_nil_iff, List.all_eq_true]
      simp only [Option.isSome_some, Option.any_some, ← hwords, true_iff]
      exact ne_or_eq _ _

/-- Some line calls nothing, of those that were read for a record. -/
def CallsNothingFor (id : RecordId) (read : List (Option RecordId × String)) : Prop :=
  ∃ l ∈ read, l.1 = some id ∧ callsNothing l.2 = true

instance (id : RecordId) (read : List (Option RecordId × String)) :
    Decidable (CallsNothingFor id read) :=
  inferInstanceAs (Decidable (∃ l ∈ read, _ ∧ _))

/-- The calls that lines name for a record. -/
def callsFor (id : RecordId) (read : List (Option RecordId × String)) : List DeclaredCall :=
  read.flatMap fun (current, line) => if current = some id then callsIn line else []

theorem callsFor_concat (current : Option RecordId) : callsFor id (read ++ [(current, line)]) =
    callsFor id read ++ if current = some id then callsIn line else [] := by
  rw [callsFor, List.flatMap_append, List.flatMap_singleton, ← callsFor]

theorem callsFor_ne_nil_iff :
    callsFor id read ≠ [] ↔ ∃ l ∈ read, l.1 = some id ∧ callsIn l.2 ≠ [] := by
  simp [callsFor, List.flatMap_eq_nil_iff]

theorem callLines_pos_iff :
    0 < callLines id read ↔ ∃ l ∈ read, l.1 = some id ∧ declaresCalls l.2 = true := by
  simp [callLines, List.countP_pos_iff]

/-- Lines declare calls for a record if they name some for it, or one of them calls nothing. -/
theorem callLines_pos_iff_calls :
    0 < callLines id read ↔ callsFor id read ≠ [] ∨ CallsNothingFor id read := by
  simp only [callLines_pos_iff, declaresCalls_iff, callsFor_ne_nil_iff, CallsNothingFor,
    and_or_left, exists_or]

end Annotations

/-- The calls of each record are those that the lines named that were read for it. -/
def Facts.HoldsCalls (f : Facts) (read : List (Option RecordId × String)) : Prop :=
  ∀ id, (f.record id).calls = Annotations.callsFor id read

theorem Facts.holdsCalls_empty : empty.HoldsCalls [] := fun _ => rfl

namespace Annotations

variable {line : String} {id : RecordId} {read : List (Option RecordId × String)} {f : Facts}

/-- **A line gives its calls to the current record.** -/
theorem isLaw_holdsCalls : IsLaw Facts.HoldsCalls := by
  intro rebind file line s read hs h id
  have hst : statement? rules (Language.ofFileName file) s.inBlock line = _ := rfl
  rw [Reader.view_step FunctionRecord.calls (fun _ => rfl) hs hst, callsFor_concat, ← h id,
    ← declared_statement? (Language.ofFileName file) s.inBlock line]
  by_cases hcur : s.current = some id
  · rw [if_pos hcur, if_pos hcur]
    cases statement? rules (Language.ofFileName file) s.inBlock line with
    | none => exact (List.append_nil _).symm
    | some st => exact Statement.calls_addTo
  · rw [if_neg hcur, if_neg hcur, List.append_nil]

/-! ### Covered records -/

/-- **Covered are the annotated records, and those that lines call nothing for.** -/
theorem covered_iff (hcounts : f.CountsRecords) (hfacts : f.Conserves read)
    (hcalls : f.HoldsCalls read) :
    id ∈ f.covered.keys ↔ (f.record id).IsAnnotated ∨ CallsNothingFor id read := by
  have hpos : 0 < Tally.count f.covered id ↔
      (f.record id).IsAnnotated ∨ CallsNothingFor id read := by
    rw [hfacts id, Nat.add_pos_iff_pos_or_pos, callLines_pos_iff_calls,
      FunctionRecord.isAnnotated_iff, hcalls id, or_assoc]
  rw [hcounts.mem_keys_iff, ← hpos, and_iff_right_iff_imp]
  -- nothing is counted for a record that is not there
  intro h
  by_contra hlen
  rw [hcounts.count_eq_zero (Nat.le_of_not_lt hlen)] at h
  exact Nat.lt_irrefl 0 h

/-- The number of covered records, by what tells them. -/
theorem size_covered_of_iff {p : RecordId → Prop} [DecidablePred p] (hcounts : f.CountsRecords)
    (h : ∀ id, id ∈ f.covered.keys ↔ p id) :
    f.covered.size = (List.range f.records.length).countP p := by
  have hpos : ∀ id ∈ List.range f.records.length,
      decide (0 < Tally.count f.covered id) = true ↔ decide (p id) = true := fun id hid => by
    rw [decide_eq_true_eq, decide_eq_true_eq, ← h id, hcounts.mem_keys_iff,
      and_iff_right (List.mem_range.mp hid)]
  rw [hcounts.size_covered, Facts.coveredAccounts, Facts.accounts, List.filter_map,
    List.length_map, ← List.countP_eq_length_filter]
  exact List.countP_congr hpos

theorem countP_records (p : FunctionRecord → Bool) :
    f.records.countP p = (List.range f.records.length).countP fun id => p (f.record id) := by
  have hrecords : f.records = (List.range f.records.length).map f.record := by
    rw [← f.map_record_accounts, List.length_map, f.length_accounts, Facts.accounts, List.map_map]
    rfl
  conv_lhs => rw [hrecords, List.countP_map]
  rfl

theorem Reader.map_snd_linesRead (r : Reader) (file : String) (s : State) (lines : List String) :
    (r.linesRead file s lines).map Prod.snd = lines := by
  induction lines generalizing s with
  | nil => rfl
  | cons line lines ih => rw [linesRead, List.map_cons, ih]

/-- The lines that are read are those of the files. -/
theorem map_snd_linesRead (facts : Facts) (ps : List Parse) :
    (linesRead facts ps).map Prod.snd = ps.flatMap fun p => Reader.linesOf p.text := by
  induction ps generalizing facts with
  | nil => rfl
  | cons p ps ih =>
      rw [linesRead, List.map_append, Reader.map_snd_linesRead, ih, List.flatMap_cons]

theorem not_callsNothing {facts : Facts} {ps : List Parse}
    (h : ∀ p ∈ ps, ∀ line ∈ Reader.linesOf p.text, callsNothing line = false) :
    ¬ CallsNothingFor id (linesRead facts ps) := by
  rintro ⟨l, hl, -, hnothing⟩
  have hmem : l.2 ∈ (linesRead facts ps).map Prod.snd := List.mem_map_of_mem hl
  rw [map_snd_linesRead] at hmem
  obtain ⟨p, hp, hline⟩ := List.mem_flatMap.mp hmem
  rw [h p hp l.2 hline] at hnothing
  cases hnothing

/-- **Covered means annotated, but for lines that call nothing.**  Over any parses of any files, a
record is counted if it holds a fact or a line that calls nothing was read for it, and the report
counts just these records.  Where no line calls nothing it counts the records that hold a fact. -/
theorem covered_annotated (ps : List Parse) :
    let facts := parseAll .empty ps
    let read := linesRead .empty ps
    (∀ id, id ∈ facts.covered.keys ↔ (facts.record id).IsAnnotated ∨ CallsNothingFor id read) ∧
      facts.coverage.covered = (List.range facts.records.length).countP (fun id =>
        (facts.record id).IsAnnotated ∨ CallsNothingFor id read) ∧
      ((∀ p ∈ ps, ∀ line ∈ Reader.linesOf p.text, callsNothing line = false) →
        (∀ id, id ∈ facts.covered.keys ↔ (facts.record id).IsAnnotated) ∧
          facts.coverage.covered = facts.records.countP fun r => r.IsAnnotated) := by
  intro facts read
  have hcounts : facts.CountsRecords := countsRecords_parseAll Facts.countsRecords_empty ps
  have hcovered : ∀ id, id ∈ facts.covered.keys ↔
      (facts.record id).IsAnnotated ∨ CallsNothingFor id read := fun id =>
    covered_iff hcounts (conserves_parseAll ps Facts.conserves_empty)
      (isLaw_holdsCalls.parseAll ps Facts.holdsCalls_empty)
  refine ⟨hcovered, congrArg Nat.cast (size_covered_of_iff hcounts hcovered), fun h => ?_⟩
  have hannotated : ∀ id, id ∈ facts.covered.keys ↔ (facts.record id).IsAnnotated := fun id =>
    (hcovered id).trans (or_iff_left (not_callsNothing h))
  refine ⟨hannotated, congrArg Nat.cast ?_⟩
  rw [countP_records]
  exact size_covered_of_iff hcounts hannotated

/-- Of two records only the one with a fact is counted. -/
theorem covered_annotated_one_of_two :
    let ps : List Parse :=
      [⟨true, "a.go", "// ThreatSpec M for F\n// Calls G\n"⟩,
        ⟨false, "b.py", "# ThreatSpec M for G\n"⟩]
    (∀ p ∈ ps, ∀ line ∈ Reader.linesOf p.text, callsNothing line = false) ∧
      0 ∈ (parseAll .empty ps).covered.keys ∧ 1 ∉ (parseAll .empty ps).covered.keys ∧
      (parseAll .empty ps).coverage.covered = 1 := by
  intro ps
  have hnames : ∀ p ∈ ps, ∀ line ∈ Reader.linesOf p.text, callsNothing line = false := by
    decide +kernel
  obtain ⟨hiff, hcount⟩ := (covered_annotated ps).2.2 hnames
  have hblank : ¬ ((parseAll .empty ps).record 1).IsAnnotated := by decide +kernel
  exact ⟨hnames, (hiff 0).mpr (by decide +kernel), fun h => hblank ((hiff 1).mp h),
    hcount.trans (by decide +kernel)⟩

/-- A record is counted for a line of calls that has but a blank behind its keyword. -/
theorem covered_unannotated :
    let ps : List Parse := [⟨true, "a.go", "// ThreatSpec M for F\n// Calls  \n"⟩]
    let facts := parseAll .empty ps
    0 ∈ facts.covered.keys ∧ ¬ (facts.record 0).IsAnnotated ∧ callsNothing "// Calls  " = true ∧
      facts.coverage.covered = 1 ∧ (facts.records.countP fun r => r.IsAnnotated) = 0 := by
  decide +kernel

end Annotations

end ThreatModel
