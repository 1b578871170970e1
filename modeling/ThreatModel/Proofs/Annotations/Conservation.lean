import ThreatModel.Proofs.Annotations.Spans

/-!
# Conservation — what the tallies count is what the records hold

A fact of a block is counted for the current record when it joins the record's lists.  A line that
declares calls is counted once, however many calls it declares, so for such lines the count has to
be compared with the lines themselves: `linesRead` lists every line with the record that is
current when it is read, and `callLines` counts those of one record.

* `Facts.Conserves`: the law, between the facts and the lines that were read for them.
* `conserves_step`: one line keeps it, whatever rule reads the line.
* `IsLaw.parseAll`: any parses of any files keep a law that every line keeps.
* `conserves_parseAll`: so they conserve facts.
* `tallies_conserved`: the entries of the three tallies.
-/

namespace ThreatModel

/-- The number of facts that a record holds in its five lists of facts from blocks. -/
def FunctionRecord.factCount (r : FunctionRecord) : Nat :=
  r.mitigations.length + r.exposures.length + r.capabilities.length + r.flows.length +
    r.tests.length

namespace Annotations

/-! ### Lines and the records they are read for -/

/-- The lines of a file, each with the record that is current when it is read. -/
def Reader.linesRead (r : Reader) (file : String) (s : State) :
    List String → List (Option RecordId × String)
  | []            => []
  | line :: lines => (s.current, line) :: r.linesRead file (r.step file s line) lines

/-- The lines of parses into the facts there are, each with the record that is current when it is
read. -/
def linesRead (facts : Facts) : List Parse → List (Option RecordId × String)
  | []      => []
  | p :: ps =>
    (Reader.usual p.rebind).linesRead p.file (.start p.file facts) (Reader.linesOf p.text) ++
      linesRead ((Reader.usual p.rebind).readSource facts p.file p.text).1 ps

/-- The number of lines that declare calls while a record is the current one. -/
def callLines (id : RecordId) (read : List (Option RecordId × String)) : Nat :=
  read.countP fun (current, line) => current = some id ∧ declaresCalls line = true

theorem callLines_concat (id : RecordId) (read : List (Option RecordId × String))
    (current : Option RecordId) (line : String) : callLines id (read ++ [(current, line)]) =
      callLines id read + if current = some id ∧ declaresCalls line = true then 1 else 0 := by
  rw [callLines, List.countP_append, List.countP_singleton]
  simp only [decide_eq_true_eq]
  rfl

end Annotations

/-- What is counted for a record are its facts and the lines that declared calls for it. -/
def Facts.Conserves (f : Facts) (read : List (Option RecordId × String)) : Prop :=
  ∀ id, Tally.count f.covered id = (f.record id).factCount + Annotations.callLines id read

theorem Facts.conserves_empty : empty.Conserves [] := fun _ => rfl

namespace Annotations

/-! ### What a line is counted for -/

variable {line : String} {st : Statement}

/-- What is counted is a fact of a block, or declares calls, and never both. -/
theorem count_isFact (st : Statement) : (if st.isFact = true then 1 else 0) =
    (if st.rule.blockOnly = true then 1 else 0) + if st.form? = some .calls then 1 else 0 := by
  cases st <;> rfl

theorem factCount_addTo {file : String} {number : Int} {r : FunctionRecord} :
    (st.addTo file number r).factCount =
      r.factCount + if st.rule.blockOnly = true then 1 else 0 := by
  cases st with
  | definition f c => simp only [Statement.addTo]; split <;> rfl
  | mitigation | exposure | capability | flow | test =>
      simp only [Statement.addTo, FunctionRecord.factCount, List.length_append,
        List.length_singleton, Statement.rule, Statement.form?, Option.elim_some, Rule.blockOnly,
        if_true]
      omega
  | _ => rfl

namespace Reader

variable {rebind : Bool} {file : String} {s : State}

/-- **A line adds to the facts of the current record only**, by its statement. -/
theorem factCount_step (hs : s.Stored) (id : RecordId) :
    (((usual rebind).step file s line).facts.record id).factCount = (s.facts.record id).factCount +
      if s.current = some id ∧ (statement? rules (Language.ofFileName file) s.inBlock line).any
        (·.rule.blockOnly) = true then 1 else 0 := by
  have hst : statement? rules (Language.ofFileName file) s.inBlock line = _ := rfl
  rw [view_step FunctionRecord.factCount (fun _ => rfl) hs hst]
  by_cases hcur : s.current = some id
  · cases statement? rules (Language.ofFileName file) s.inBlock line with
    | none => simp
    | some st => simp [hcur, factCount_addTo]
  · simp [hcur]

/-- **A line keeps the law**: it is counted for the current record if it gives it a fact or declares
calls. -/
theorem conserves_step {read : List (Option RecordId × String)} (h : s.facts.Conserves read)
    (hs : s.Stored) :
    ((usual rebind).step file s line).facts.Conserves (read ++ [(s.current, line)]) := by
  intro id
  have hcalls := any_calls_statement? (Language.ofFileName file) s.inBlock line
  rw [callLines_concat, factCount_step hs, ← hcalls]
  have hcovered : ((usual rebind).step file s line).facts.covered =
      countIf s.facts.covered (if (statement? rules (Language.ofFileName file) s.inBlock line).any
        Statement.isFact = true then s.current else none) := (counts_step rfl).2.2.1
  rw [hcovered, count_countIf, h id]
  by_cases hcur : s.current = some id
  · cases statement? rules (Language.ofFileName file) s.inBlock line with
    | none => simp
    | some st =>
        have hcount := count_isFact st
        simp only [Option.any_some, hcur, true_and, decide_eq_true_eq, ite_eq_left_iff,
          reduceCtorEq, imp_false, Decidable.not_not] at hcount ⊢
        omega
  · simp [hcur]

end Reader

/-! ### Runs -/

/-- A law between facts and the lines that were read for them, which every line keeps. -/
def IsLaw (law : Facts → List (Option RecordId × String) → Prop) : Prop :=
  ∀ {rebind : Bool} {file line : String} {s : State} {read : List (Option RecordId × String)},
    s.Stored → law s.facts read →
      law ((Reader.usual rebind).step file s line).facts (read ++ [(s.current, line)])

theorem IsLaw.foldl {law : Facts → List (Option RecordId × String) → Prop} (h : IsLaw law)
    {rebind : Bool} {file : String} (lines : List String) {s : State}
    {read : List (Option RecordId × String)} (hs : s.Stored) (hread : law s.facts read) :
    law (lines.foldl ((Reader.usual rebind).step file) s).facts
      (read ++ (Reader.usual rebind).linesRead file s lines) := by
  induction lines generalizing s read with
  | nil => rwa [Reader.linesRead, List.append_nil]
  | cons line lines ih =>
      rw [Reader.linesRead, List.append_cons]
      exact ih (Reader.stored_step hs) (h hs hread)

/-- **Any parses of any files keep a law.** -/
theorem IsLaw.parseAll {law : Facts → List (Option RecordId × String) → Prop} (h : IsLaw law)
    (ps : List Parse) {facts : Facts} {read : List (Option RecordId × String)}
    (hread : law facts read) : law (parseAll facts ps) (read ++ linesRead facts ps) := by
  induction ps generalizing facts read with
  | nil => rwa [linesRead, List.append_nil]
  | cons p ps ih =>
      rw [linesRead, ← List.append_assoc]
      exact ih (h.foldl _ (State.stored_start p.file facts) hread)

/-- **Facts are conserved by any parses of any files.** -/
theorem conserves_parseAll (ps : List Parse) {facts : Facts}
    {read : List (Option RecordId × String)} (h : facts.Conserves read) :
    (parseAll facts ps).Conserves (read ++ linesRead facts ps) :=
  IsLaw.parseAll (fun hs h => Reader.conserves_step h hs) ps h

/-! ### The entries of the tallies -/

theorem count_testedFunctions (rs : List FunctionRecord) (name : String) :
    (testedFunctions rs).count name =
      (rs.flatMap FunctionRecord.tests).countP (·.function = name) := by
  rw [testedFunctions, ← List.map_flatMap, List.count, List.countP_map]
  exact List.countP_congr fun t _ => by simp

/-- A definition is found in each line that the pattern of the file's language reads. -/
theorem count_definitionsOf (ps : List Parse) (name : String) :
    (ps.flatMap fun p => definitionsOf p.source).count name =
      (ps.map fun p => (Reader.linesOf p.text).countP fun line =>
        definedIn? (Language.ofFileName p.file) line = some name).sum := by
  rw [List.count_flatMap]
  refine congrArg List.sum (List.map_congr_left fun p _ => ?_)
  rw [Function.comp_apply, definitionsOf, List.count, List.countP_filterMap]
  refine List.countP_congr fun line _ => ?_
  cases hdef : definedIn? (Language.ofFileName p.file) line <;> simp [Parse.source, hdef]

/-- **The tallies conserve facts**, over any parses of any files.  A record is counted for each of
its facts and for each line that declared calls while it was the current one, and nothing else is
counted; every record there is has its entry in the table or is among the duplicates.  Tests are
counted by the function they name, over all records, and definitions by their name, over all lines,
whatever the annotations say. -/
theorem tallies_conserved (ps : List Parse) :
    let facts := parseAll .empty ps
    (∀ id, facts.covered.get? id =
        Tally.entry ((facts.record id).factCount + callLines id (linesRead .empty ps))) ∧
      (∀ id ∈ facts.covered.keys, id < facts.records.length) ∧
      (facts.table.values ++ facts.duplicates).Perm (List.range facts.records.length) ∧
      (∀ name, facts.tested.get? name =
        Tally.entry ((facts.records.flatMap FunctionRecord.tests).countP (·.function = name))) ∧
      (∀ name, facts.found.get? name =
        Tally.entry (ps.map fun p => (Reader.linesOf p.text).countP fun line =>
          definedIn? (Language.ofFileName p.file) line = some name).sum) := by
  intro facts
  have hcounts : facts.CountsRecords := countsRecords_parseAll Facts.countsRecords_empty ps
  refine ⟨fun id => ?_, fun id hid => ?_, (filed_parseAll Facts.filed_empty ps).once,
    fun name => ?_, fun name => ?_⟩
  · rw [Tally.get?_eq_entry fun n hn => (hcounts id n hn).2]
    exact congrArg Tally.entry (conserves_parseAll ps Facts.conserves_empty id)
  · obtain ⟨n, hn⟩ := Ledger.mem_keys_iff.mp hid
    exact (hcounts id n hn).1
  · have htested : facts.tested = Tally.ofList (testedFunctions facts.records) :=
      tested_parseAll rfl ps
    rw [htested, Tally.get?_ofList, count_testedFunctions]
    rfl
  · have hfound : facts.found = Tally.ofList (ps.flatMap fun p => definitionsOf p.source) :=
      found_parseAll .empty ps
    rw [hfound, Tally.get?_ofList, count_definitionsOf]
    rfl

/-- A line that declares two calls is counted once, and so is one behind the block. -/
example :
    let ps : List Parse :=
      [⟨true, "a.go", "// ThreatSpec M for F\n// Does x for y\n// Calls G H\n\n// Calls G"⟩]
    (parseAll .empty ps).covered.toList = [(0, 3)] ∧ callLines 0 (linesRead .empty ps) = 2 := by
  decide +kernel

end Annotations

end ThreatModel
