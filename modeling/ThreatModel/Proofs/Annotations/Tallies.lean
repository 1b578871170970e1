import ThreatModel.Proofs.Annotations.Filing

/-!
# Tallies — what is counted is what was read

Packages and definitions are taken from every line, whatever the state of the reader
(`packages_step`, `found_step`).  Tests are counted when they join the record of a block, which is
always the last record, so the tally of tests is that of the tests of all records
(`State.TalliesTests`).  Facts are counted for the current record, so nothing is counted for a
record that is not there yet (`Facts.CountsRecords`).

`packages_parseAll`, `found_parseAll`, `tested_parseAll` and `countsRecords_parseAll` say the same
of any parses of any files.
-/

namespace ThreatModel

/-! ### Counts -/

/-- The functions that the tests of records are of, record by record. -/
def testedFunctions (rs : List FunctionRecord) : List String :=
  rs.flatMap fun r => r.tests.map ThreatTest.function

namespace Facts

/-- Only records there are have counts, and no count is 0. -/
def CountsRecords (f : Facts) : Prop :=
  ∀ id n, f.covered.get? id = some n → id < f.records.length ∧ 0 < n

theorem countsRecords_empty : empty.CountsRecords := nofun

theorem CountsRecords.count_eq_zero {f : Facts} (h : f.CountsRecords) {id : RecordId}
    (hid : f.records.length ≤ id) : Tally.count f.covered id = 0 := by
  rw [Tally.count]
  cases hget : f.covered.get? id with
  | none => rfl
  | some n => exact absurd (h id n hget).1 (Nat.not_lt_of_le hid)

end Facts

theorem testedFunctions_append (rs rs' : List FunctionRecord) :
    testedFunctions (rs ++ rs') = testedFunctions rs ++ testedFunctions rs' :=
  List.flatMap_append

theorem testedFunctions_singleton (r : FunctionRecord) :
    testedFunctions [r] = r.tests.map ThreatTest.function :=
  List.flatMap_singleton ..

namespace Annotations

/-! ### Definitions and tests -/

/-- The function that a line of the code defines. -/
def definedIn? (language : Language) (line : String) : Option String :=
  (language.definition.match? line).map fun m => m.get .function

variable {l : Language} {inBlock : Bool} {line : String} {st : Statement}

theorem bind_defined?_statement? :
    (statement? rules l inBlock line).bind Statement.defined? = definedIn? l line := by
  rw [bind_statement? (r := .definition) rfl (by decide) fun st _ hrule => ?_]
  · rw [definedIn?, Rule.read?]
    cases l.definition.match? line <;> rfl
  · cases st with
    | definition => exact absurd rfl hrule
    | _ => rfl

theorem tests_addTo {file : String} {number : Int} {rec : FunctionRecord} :
    ((st.addTo file number rec).tests.map ThreatTest.function) =
      rec.tests.map ThreatTest.function ++ st.tested?.toList := by
  cases st with
  | definition f c => simp only [Statement.addTo, Statement.tested?]; split <;> simp
  | _ => simp [Statement.addTo, Statement.tested?]

/-- The last record, if it is the current one, is changed. -/
theorem onCurrent_concat {s : State} {init : List FunctionRecord} {last : FunctionRecord}
    (hrecords : s.facts.records = init ++ [last]) (hcur : s.current = some init.length)
    (g : FunctionRecord → FunctionRecord) : s.onCurrent g = init ++ [g last] := by
  rw [State.onCurrent, hcur]
  show s.facts.records.modify init.length g = init ++ [g last]
  rw [hrecords]
  clear hrecords hcur
  induction init with
  | nil => rfl
  | cons r init ih => exact congrArg (r :: ·) ih

theorem testedFunctions_onCurrent {s : State} {g : FunctionRecord → FunctionRecord}
    (h : ∀ r, (g r).tests.map ThreatTest.function = r.tests.map ThreatTest.function) :
    testedFunctions (s.onCurrent g) = testedFunctions s.facts.records := by
  rw [testedFunctions, List.flatMap_def, s.map_onCurrent h, ← List.flatMap_def, ← testedFunctions]

/-! ### Steps -/

/-- In a block the current record is the last one, and the tests counted are in the records. -/
structure State.TalliesTests (s : State) : Prop where
  last : s.inBlock = true → ∃ id, s.current = some id ∧ s.facts.records.length = id + 1
  tested : s.facts.tested = Tally.ofList (testedFunctions s.facts.records)

theorem State.talliesTests_start (file : String) {facts : Facts}
    (h : facts.tested = Tally.ofList (testedFunctions facts.records)) :
    (start file facts).TalliesTests where
  last hin := by cases hin
  tested := h

namespace Reader

variable {rebind : Bool} {file : String} {s : State}

theorem packages_step : ((usual rebind).step file s line).facts.packages =
    s.facts.packages ++ (packageIn? line).toList := by
  rw [(counts_step rfl).1]
  exact congrArg (fun p => _ ++ Option.toList p) bind_package?_statement?

theorem found_step : ((usual rebind).step file s line).facts.found =
    countIf s.facts.found (definedIn? (Language.ofFileName file) line) := by
  rw [(counts_step rfl).2.1]
  exact congrArg (countIf _) bind_defined?_statement?

/-- Facts are counted for records there are. -/
theorem countsRecords_step (h : s.facts.CountsRecords) (hs : s.Stored) :
    ((usual rebind).step file s line).facts.CountsRecords := by
  intro id n hget
  have hlen := length_le_step (s := s) rebind file line
  rw [(counts_step rfl).2.2.1] at hget
  split at hget
  · cases hcur : s.current with
    | none =>
        rw [hcur] at hget
        exact ⟨Nat.lt_of_lt_of_le (h id n hget).1 hlen, (h id n hget).2⟩
    | some i =>
        rw [hcur, countIf, Option.elim_some, Tally.bump, Ledger.get?_alter] at hget
        split at hget
        · rename_i hi
          cases hget
          exact ⟨Nat.lt_of_lt_of_le (hi ▸ (hs i hcur).1) hlen, Nat.succ_pos _⟩
        · exact ⟨Nat.lt_of_lt_of_le (h id n hget).1 hlen, (h id n hget).2⟩
  · exact ⟨Nat.lt_of_lt_of_le (h id n hget).1 hlen, (h id n hget).2⟩

/-- **A test is counted when it joins the last record.** -/
theorem talliesTests_step (h : s.TalliesTests) :
    ((usual rebind).step file s line).TalliesTests where
  last hin := by
    rw [inBlock_step] at hin
    cases hh : isHeader line with
    | true => exact ⟨_, current_step_of_isHeader hh, by rw [length_step, hh, if_pos rfl]⟩
    | false =>
        rw [hh, Bool.false_or, Bool.and_eq_true] at hin
        rw [current_step_of_isRuled hh hin.1 hin.2, length_step, hh]
        exact h.last hin.1
  tested := by
    cases hst : statement? rules (Language.ofFileName file) s.inBlock line with
    | none =>
        rw [(counts_step (r := usual rebind) hst).2.2.2, records_step_of_none hst, ← h.tested]
        cases s.current <;> rfl
    | some st =>
        have hnew : testedFunctions (st.record? s.package line).toList = [] := by cases st <;> rfl
        rw [(counts_step (r := usual rebind) hst).2.2.2, records_step_of_some hst, h.tested,
          testedFunctions_append, hnew, List.append_nil, Option.bind_some]
        cases htest : st.tested? with
        | none =>
            rw [testedFunctions_onCurrent fun r => by rw [tests_addTo, htest]; simp]
            cases s.current <;> rfl
        | some f =>
            -- a test has joined the record of the block, the last one
            have hin : s.inBlock = true := by
              refine inBlock_of_statement? hst ?_
              cases st with
              | test => rfl
              | _ => cases htest
            obtain ⟨id, hcur, hlen⟩ := h.last hin
            obtain ⟨init, last, hrecords⟩ := List.eq_nil_or_concat' s.facts.records |>.resolve_left
              fun hnil => by simp [hnil] at hlen
            obtain rfl : init.length = id := by simpa [hrecords] using hlen
            rw [onCurrent_concat hrecords hcur, hrecords, hcur, testedFunctions_append,
              testedFunctions_append, testedFunctions_singleton, testedFunctions_singleton,
              tests_addTo, htest, Option.toList_some, ← List.append_assoc]
            exact (Tally.ofList_concat _ _).symm

/-! ### Runs -/

theorem packages_foldl (lines : List String) :
    (lines.foldl ((usual rebind).step file) s).facts.packages =
      s.facts.packages ++ lines.filterMap packageIn? := by
  have hstep : ∀ (s : State) line, ((usual rebind).step file s line).facts.packages =
      s.facts.packages ++ (packageIn? line).toList := fun _ _ => packages_step
  rw [List.filterMap_eq_flatMap_toList]
  exact append_foldl (fun s : State => s.facts.packages) hstep lines s

theorem found_foldl (lines : List String) :
    (lines.foldl ((usual rebind).step file) s).facts.found =
      (lines.filterMap (definedIn? (Language.ofFileName file))).foldl Tally.bump s.facts.found := by
  induction lines generalizing s with
  | nil => rfl
  | cons line lines ih =>
      rw [List.foldl_cons, ih, found_step, List.filterMap_cons]
      cases definedIn? (Language.ofFileName file) line <;> rfl

theorem countsRecords_foldl (lines : List String) (h : s.facts.CountsRecords) (hs : s.Stored) :
    (lines.foldl ((usual rebind).step file) s).facts.CountsRecords := by
  induction lines generalizing s with
  | nil => exact h
  | cons line lines ih => exact ih (countsRecords_step h hs) (stored_step hs)

theorem talliesTests_foldl (lines : List String) (h : s.TalliesTests) :
    (lines.foldl ((usual rebind).step file) s).TalliesTests :=
  lines.foldlRecOn _ h fun _ h _ _ => talliesTests_step h

end Reader

/-! ### Several files -/

/-- A file's name and its text. -/
def Parse.source (p : Parse) : String × String := (p.file, p.text)

/-- The packages that a source declares. -/
def packagesOf (source : String × String) : List Package :=
  (Reader.linesOf source.2).filterMap packageIn?

/-- The functions that a source defines. -/
def definitionsOf (source : String × String) : List String :=
  (Reader.linesOf source.2).filterMap (definedIn? (Language.ofFileName source.1))

theorem packages_parseAll (facts : Facts) (ps : List Parse) :
    (parseAll facts ps).packages =
      facts.packages ++ ps.flatMap fun p => packagesOf p.source :=
  append_foldl Facts.packages (fun _ _ => Reader.packages_foldl _) ps facts

theorem found_parseAll (facts : Facts) (ps : List Parse) :
    (parseAll facts ps).found =
      (ps.flatMap fun p => definitionsOf p.source).foldl Tally.bump facts.found := by
  induction ps generalizing facts with
  | nil => rfl
  | cons p ps ih =>
      have hp : ((Reader.usual p.rebind).readSource facts p.file p.text).1.found =
          (definitionsOf p.source).foldl Tally.bump facts.found := Reader.found_foldl _
      rw [List.flatMap_cons, List.foldl_append, ← hp]
      exact ih _

theorem countsRecords_parseAll {facts : Facts} (h : facts.CountsRecords) (ps : List Parse) :
    (parseAll facts ps).CountsRecords :=
  ps.foldlRecOn _ h fun facts h p _ =>
    Reader.countsRecords_foldl _ h (State.stored_start p.file facts)

/-- **The tests counted are those of all records.** -/
theorem tested_parseAll {facts : Facts}
    (h : facts.tested = Tally.ofList (testedFunctions facts.records)) (ps : List Parse) :
    (parseAll facts ps).tested = Tally.ofList (testedFunctions (parseAll facts ps).records) :=
  ps.foldlRecOn (motive := fun facts : Facts =>
      facts.tested = Tally.ofList (testedFunctions facts.records)) _ h
    fun _ h p _ => (Reader.talliesTests_foldl _ (State.talliesTests_start p.file h)).tested

end Annotations

end ThreatModel
