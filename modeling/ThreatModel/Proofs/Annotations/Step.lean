import ThreatModel.Annotations.Reader

/-!
# Steps — what one line does to the state of a reader

A line takes effect by its statement, or ends the block if it has none; then the current record is
stored.  What a statement does to the current record is `addTo`, and the record it opens is
`record?`: `records_apply` says that nothing else happens to records.  Storing touches the table
and the duplicates only.

* `step_of_some`, `step_of_none`: a step by the statement of its line.
* `records_apply`: the records after a statement.
* `opened_addTo`, `statements_addTo`: a statement leaves what the header gave a record, and adds
  itself to the facts of its own form.
* `counts_step`: what a step adds to the packages and to the tallies.
* `account_step_of_some`: a statement changes the current record and its count, and no other's.
-/

namespace ThreatModel

namespace Facts

/-- What a change does to the record of an id is all that matters of it. -/
theorem modify_congr {f : Facts} {id : RecordId} {g g' : FunctionRecord → FunctionRecord}
    (h : g (f.record id) = g' (f.record id)) : f.records.modify id g = f.records.modify id g' := by
  refine List.ext_getElem? fun i => ?_
  rw [List.getElem?_modify, List.getElem?_modify]
  by_cases hi : id = i
  · subst hi
    cases hr : f.records[id]? with
    | none => rfl
    | some r =>
        have hrec : f.record id = r := by rw [record, List.getD_eq_getElem?_getD, hr]; rfl
        rw [hrec] at h
        simp [h]
  · simp [hi]

end Facts

namespace FunctionRecord
open Annotations

/-- The record as its header opened it. -/
def opened (r : FunctionRecord) : FunctionRecord :=
  { model := r.model, function := r.function, package := r.package, raw := r.raw }

theorem key_opened (r : FunctionRecord) : r.opened.key = r.key := rfl

theorem function_opened (r : FunctionRecord) : r.opened.function = r.function := rfl

theorem shortName_opened (r : FunctionRecord) : r.opened.shortName = r.shortName := rfl

/-- The facts of a form that a record holds, as the statements they were read from. -/
def statements (r : FunctionRecord) : Form → List Statement
  | .mitigation => r.mitigations.map .mitigation
  | .exposure   => r.exposures.map .exposure
  | .capability => r.capabilities.map .capability
  | .flow       => r.flows.map .flow
  | .test       => r.tests.map .test
  | _           => []

end FunctionRecord

namespace Annotations

/-! ### What statements do to records -/

namespace Statement

/-- What a statement adds to the current record.  A definition binds it only if it names it. -/
def addTo (file : String) (line : Int) (st : Statement) (r : FunctionRecord) : FunctionRecord :=
  match st with
  | package _      => r
  | header _ _     => r
  | mitigation f   => { r with mitigations := r.mitigations ++ [f] }
  | exposure f     => { r with exposures := r.exposures ++ [f] }
  | capability c   => { r with capabilities := r.capabilities ++ [c] }
  | flow f         => { r with flows := r.flows ++ [f] }
  | test t         => { r with tests := r.tests ++ [t] }
  | calls cs       => { r with calls := r.calls ++ cs }
  | definition f c =>
    if (Text.words f.toList).getLast?.map String.ofList = some r.shortName then
      { r with site := some ⟨file, line, c⟩ }
    else r

/-- The record that a statement opens. -/
def record? (package : Option Package) (raw : String) : Statement → Option FunctionRecord
  | header m f => some { model := m, function := f, package := package, raw := raw }
  | _          => none

/-- The package that a statement declares. -/
def package? : Statement → Option Package
  | package p => some p
  | _         => none

/-- The form that a statement is read by; a definition has none. -/
def form? : Statement → Option Form
  | package _      => some .package
  | header _ _     => some .header
  | mitigation _   => some .mitigation
  | exposure _     => some .exposure
  | capability _   => some .capability
  | flow _         => some .flow
  | test _         => some .test
  | calls _        => some .calls
  | definition _ _ => none

/-- The statement is one of the six that go to the current record. -/
def isFact : Statement → Bool
  | mitigation _ | exposure _ | capability _ | flow _ | test _ | calls _ => true
  | _ => false

/-- The function that a statement defines. -/
def defined? : Statement → Option String
  | definition f _ => some f
  | _              => none

/-- The function that a statement says is tested. -/
def tested? : Statement → Option String
  | test t => some t.function
  | _      => none

variable {file : String} {line : Int} {st : Statement} {r : FunctionRecord}

theorem form?_statement (f : Form) (raw : String) (m : Pattern.Match Part) :
    (f.statement raw m).form? = some f := by
  cases f <;> rfl

theorem opened_addTo : (st.addTo file line r).opened = r.opened := by
  cases st with
  | definition f c => simp only [addTo]; split <;> rfl
  | _ => rfl

theorem key_addTo : (st.addTo file line r).key = r.key := by
  rw [← FunctionRecord.key_opened, opened_addTo, FunctionRecord.key_opened]

/-- A statement joins the facts of its own form. -/
theorem statements_addTo {f : Form} (hf : (Rule.form f).blockOnly = true) :
    (st.addTo file line r).statements f =
      r.statements f ++ if st.form? = some f then [st] else [] := by
  cases st with
  | definition g c =>
      simp only [addTo, form?, reduceCtorEq, if_false, List.append_nil]
      split <;> cases f <;> rfl
  | _ => cases f <;> simp_all [addTo, form?, FunctionRecord.statements, Rule.blockOnly]

end Statement

/-! ### What statements do to the state -/

/-- Counts a key, if there is one. -/
def countIf {κ : Type} [DecidableEq κ] (t : Tally κ) (k : Option κ) : Tally κ := k.elim t (Tally.bump t)

namespace State

variable (s : State) (file raw : String) (st : Statement)

/-- The records, the current one changed. -/
def onCurrent (g : FunctionRecord → FunctionRecord) : List FunctionRecord :=
  match s.current with
  | some id => s.facts.records.modify id g
  | none    => s.facts.records

theorem onCurrent_id : s.onCurrent (fun r => r) = s.facts.records := by
  rw [onCurrent]
  split
  · exact List.modify_id _ _
  · rfl

theorem attach_eq (g : FunctionRecord → FunctionRecord) : s.attach raw g = { s with
    facts := { s.facts with
      records := s.onCurrent g
      covered := countIf s.facts.covered s.current }
    events := s.events ++ if s.current.isNone then [.orphaned raw] else [] } := by
  cases h : s.current <;> simp [attach, onCurrent, countIf, h, Facts.update]

theorem countTest_eq (function : String) : s.countTest function = { s with
    facts := { s.facts with
      tested := countIf s.facts.tested (s.current.map fun _ => function) } } := by
  obtain ⟨facts, line, inBlock, package, current, events⟩ := s
  cases current <;> rfl

/-- A definition changes the record of an id iff it names it. -/
theorem modify_definition (f : Facts) (id : RecordId) (line : Int) (function code : String) :
    f.records.modify id ((Statement.definition function code).addTo file line) =
      if (Text.words function.toList).getLast?.map String.ofList = some (f.record id).shortName then
        f.records.modify id fun r => { r with site := some ⟨file, line, code⟩ }
      else f.records := by
  split
  · rename_i h
    exact Facts.modify_congr (if_pos h)
  · rename_i h
    exact (Facts.modify_congr (if_neg h)).trans (List.modify_id id f.records)

theorem define_eq (function code : String) : s.define file function code = { s with
    facts := { s.facts with
      records := s.onCurrent ((Statement.definition function code).addTo file s.line)
      found := Tally.bump s.facts.found function } } := by
  rw [define, onCurrent]
  cases hcur : s.current with
  | none => rfl
  | some id =>
      cases hw : (Text.words function.toList).getLast? with
      | none => simp only [modify_definition, hw, Option.map_none, reduceCtorEq, if_false]
      | some w =>
          simp only [modify_definition, hw, Option.map_some, Option.some.injEq]
          by_cases hname : String.ofList w = (s.facts.record id).shortName
          · exact (if_pos hname).trans (by rw [if_pos hname]; rfl)
          · exact (if_neg hname).trans (by rw [if_neg hname])

/-- **What a statement does to the state**, field by field. -/
theorem apply_eq : s.apply file raw st = { s with
    facts := { s.facts with
      records := s.onCurrent (st.addTo file s.line) ++ (st.record? s.package raw).toList
      packages := s.facts.packages ++ st.package?.toList
      found := countIf s.facts.found st.defined?
      covered := countIf s.facts.covered (if st.isFact then s.current else none)
      tested := countIf s.facts.tested (s.current.bind fun _ => st.tested?) }
    inBlock := decide (st.form? = some .header) || s.inBlock
    package := st.package?.or s.package
    current := if st.form? = some .header then some s.facts.records.length else s.current
    events := s.events ++ if st.isFact && s.current.isNone then [.orphaned raw] else [] } := by
  cases st <;>
    simp [apply, attach_eq, define_eq, countTest_eq, countIf, Facts.add, Statement.record?,
      Statement.package?, Statement.form?, Statement.isFact, Statement.defined?, Statement.tested?]
  case package p => exact s.onCurrent_id.symm
  case header m f => exact s.onCurrent_id.symm
  case test t =>
    refine ⟨rfl, ?_⟩
    cases s.current <;> rfl
  all_goals rfl

theorem length_onCurrent (g : FunctionRecord → FunctionRecord) :
    (s.onCurrent g).length = s.facts.records.length := by
  rw [onCurrent]
  split
  · exact List.length_modify ..
  · rfl

theorem getElem?_onCurrent (g : FunctionRecord → FunctionRecord) (id : RecordId) :
    (s.onCurrent g)[id]? =
      if s.current = some id then s.facts.records[id]?.map g else s.facts.records[id]? := by
  cases hcur : s.current with
  | none => simp [onCurrent, hcur]
  | some i =>
      simp only [onCurrent, hcur, List.getElem?_modify, Option.some.injEq]
      split <;> simp

/-- A change that keeps a property of each record keeps it of them all. -/
theorem map_onCurrent {β : Type} {p : FunctionRecord → β} {g : FunctionRecord → FunctionRecord}
    (h : ∀ r, p (g r) = p r) : (s.onCurrent g).map p = s.facts.records.map p := by
  refine List.ext_getElem? fun i => ?_
  rw [List.getElem?_map, getElem?_onCurrent, List.getElem?_map]
  split
  · rw [Option.map_map, show p ∘ g = p from funext h]
  · rfl

/-- What a change keeps of each record it keeps of them all. -/
theorem forall_mem_onCurrent {holds : FunctionRecord → Prop} {g : FunctionRecord → FunctionRecord}
    (hg : ∀ r, holds r → holds (g r)) (h : ∀ r ∈ s.facts.records, holds r) :
    ∀ r ∈ s.onCurrent g, holds r := by
  intro r hr
  obtain ⟨id, hid⟩ := List.mem_iff_getElem?.mp hr
  rw [getElem?_onCurrent] at hid
  split at hid
  · obtain ⟨r', hr', rfl⟩ := Option.map_eq_some_iff.mp hid
    exact hg r' (h r' (List.mem_of_getElem? hr'))
  · exact h r (List.mem_of_getElem? hid)

theorem records_apply : (s.apply file raw st).facts.records =
    s.onCurrent (st.addTo file s.line) ++ (st.record? s.package raw).toList := by
  rw [apply_eq]

/-- A statement changes no record but the current one. -/
theorem record_apply {id : RecordId} (hid : id < s.facts.records.length) :
    (s.apply file raw st).facts.record id =
      if s.current = some id then st.addTo file s.line (s.facts.record id)
      else s.facts.record id := by
  have hlen : id < (s.onCurrent (st.addTo file s.line)).length := by rwa [length_onCurrent]
  rw [Facts.record, records_apply, List.getD_eq_getElem?_getD, List.getElem?_append_left hlen,
    getElem?_onCurrent, Facts.record, List.getD_eq_getElem?_getD, List.getElem?_eq_getElem hid]
  split <;> rfl

/-! ### Storing -/

/-- Storing changes the table and the duplicates only. -/
theorem store_eq : s.store = { s with
    facts := { s.facts with
      table := s.store.facts.table
      duplicates := s.store.facts.duplicates } } := by
  obtain ⟨facts, line, inBlock, package, current, events⟩ := s
  cases current <;> rfl

theorem records_store : s.store.facts.records = s.facts.records := by rw [store_eq]

theorem record_store (id : RecordId) : s.store.facts.record id = s.facts.record id := by
  rw [Facts.record, records_store, Facts.record]

theorem current_store : s.store.current = s.current := by rw [store_eq]

theorem inBlock_store : s.store.inBlock = s.inBlock := by rw [store_eq]

theorem package_store : s.store.package = s.package := by rw [store_eq]

theorem covered_store : s.store.facts.covered = s.facts.covered := by rw [store_eq]

end State

/-! ### Steps -/

namespace Reader

variable {r : Reader} {file line : String} {s : State} {st : Statement}

theorem step_of_some
    (h : statement? r.order (Language.ofFileName file) s.inBlock line = some st) :
    r.step file s line = (({ s with line := s.line + 1 }).apply file line st).store := by
  simp [step, h]

theorem step_of_none
    (h : statement? r.order (Language.ofFileName file) s.inBlock line = none) :
    r.step file s line = (({ s with line := s.line + 1 }).endBlock r.rebind).store := by
  simp [step, h]

theorem records_step_of_some
    (h : statement? r.order (Language.ofFileName file) s.inBlock line = some st) :
    (r.step file s line).facts.records =
      s.onCurrent (st.addTo file (s.line + 1 : Nat)) ++ (st.record? s.package line).toList := by
  rw [step_of_some h, State.records_store, State.records_apply]
  rfl

theorem records_step_of_none
    (h : statement? r.order (Language.ofFileName file) s.inBlock line = none) :
    (r.step file s line).facts.records = s.facts.records := by
  rw [step_of_none h, State.records_store]
  rfl

/-- A step changes no record but the current one. -/
theorem record_step_of_some
    (h : statement? r.order (Language.ofFileName file) s.inBlock line = some st) {id : RecordId}
    (hid : id < s.facts.records.length) :
    (r.step file s line).facts.record id =
      if s.current = some id then st.addTo file (s.line + 1 : Nat) (s.facts.record id)
      else s.facts.record id := by
  rw [step_of_some h, State.record_store]
  exact State.record_apply { s with line := s.line + 1 } file line st hid

/-- The record that a step opens is the last one. -/
theorem record_step_new
    (h : statement? r.order (Language.ofFileName file) s.inBlock line = some st)
    {new : FunctionRecord} (hnew : st.record? s.package line = some new) :
    (r.step file s line).facts.record s.facts.records.length = new := by
  rw [Facts.record, records_step_of_some h, hnew, List.getD_eq_getElem?_getD]
  simp [State.length_onCurrent]

/-- A record that was not there is as its header opens it, or blank. -/
theorem opened_step_of_le {id : RecordId} (hid : s.facts.records.length ≤ id) :
    ((r.step file s line).facts.record id).opened = (r.step file s line).facts.record id := by
  cases hst : statement? r.order (Language.ofFileName file) s.inBlock line with
  | none =>
      rw [Facts.record, records_step_of_none hst, List.getD_eq_getElem?_getD,
        List.getElem?_eq_none hid]
      rfl
  | some st =>
      rw [Facts.record, records_step_of_some hst, List.getD_eq_getElem?_getD,
        List.getElem?_append_right (by rwa [State.length_onCurrent])]
      cases hget : (st.record? s.package line).toList[id - _]? with
      | none => rfl
      | some new =>
          cases st with
          | header m f =>
              obtain rfl := List.mem_singleton.mp (List.mem_of_getElem? hget)
              rfl
          | _ => cases hget

theorem line_step : (r.step file s line).line = s.line + 1 := by
  rw [step, State.store_eq]
  split
  · rw [State.apply_eq]
  · rfl

/-- **What a step counts and declares**, by the statement of its line, if it has one. -/
theorem counts_step {st? : Option Statement}
    (h : statement? r.order (Language.ofFileName file) s.inBlock line = st?) :
    (r.step file s line).facts.packages =
        s.facts.packages ++ (st?.bind Statement.package?).toList ∧
      (r.step file s line).facts.found = countIf s.facts.found (st?.bind Statement.defined?) ∧
      (r.step file s line).facts.covered =
        countIf s.facts.covered (if st?.any Statement.isFact then s.current else none) ∧
      (r.step file s line).facts.tested =
        countIf s.facts.tested (s.current.bind fun _ => st?.bind Statement.tested?) := by
  cases st? with
  | none =>
      rw [step_of_none h, State.store_eq]
      cases s.current <;> simp [State.endBlock, countIf]
  | some st =>
      rw [step_of_some h, State.store_eq, State.apply_eq]
      simp

/-- A step reports a fact for which there is no record. -/
theorem events_step {st? : Option Statement}
    (h : statement? r.order (Language.ofFileName file) s.inBlock line = st?) :
    (r.step file s line).events = s.events ++
      if st?.any Statement.isFact && s.current.isNone then [.orphaned line] else [] := by
  cases st? with
  | none =>
      rw [step_of_none h, State.store_eq]
      simp [State.endBlock]
  | some st =>
      rw [step_of_some h, State.store_eq, State.apply_eq]
      simp

end Reader

theorem count_countIf {κ : Type} [DecidableEq κ] (t : Tally κ) (k? : Option κ) (k : κ) :
    Tally.count (countIf t k?) k = Tally.count t k + if k? = some k then 1 else 0 := by
  cases k? with
  | none => rfl
  | some k' =>
      rw [countIf, Option.elim_some, Tally.count_bump]
      simp only [Option.some.injEq]

end Annotations

/-! ### Accounts -/

/-- A record, and how many facts were counted for it. -/
structure Account where
  record : FunctionRecord
  facts : Nat
deriving DecidableEq, Repr

/-- The account of a record. -/
def Facts.account (f : Facts) (id : RecordId) : Account := ⟨f.record id, Tally.count f.covered id⟩

namespace Account
open Annotations

/-- Adds what a line of a file says; the number is that of the line. -/
def add (file : String) (a : Account) (st : Statement × Nat) : Account :=
  ⟨st.1.addTo file st.2 a.record, a.facts + if st.1.isFact then 1 else 0⟩

/-- A header adds nothing to a record that is there. -/
theorem add_header {file : String} {a : Account} {st : Statement} {n : Nat}
    (h : st.form? = some .header) : a.add file (st, n) = a := by
  cases st with
  | header => rfl
  | _ => cases h

end Account

namespace Annotations.Reader

variable {r : Reader} {file line : String} {s : State} {st : Statement} {id : RecordId}

/-- **A statement goes to the account of the current record**, and to no other. -/
theorem account_step_of_some
    (h : statement? r.order (Language.ofFileName file) s.inBlock line = some st)
    (hid : id < s.facts.records.length) :
    (r.step file s line).facts.account id =
      if s.current = some id then (s.facts.account id).add file (st, s.line + 1)
      else s.facts.account id := by
  have hcount : Tally.count (r.step file s line).facts.covered id =
      Tally.count s.facts.covered id + if st.isFact ∧ s.current = some id then 1 else 0 := by
    rw [(counts_step h).2.2.1, count_countIf]
    cases hfact : st.isFact <;> simp [hfact]
  rw [Facts.account, record_step_of_some h hid, hcount]
  by_cases hcur : s.current = some id
  · simp [hcur, Account.add, Facts.account]
  · simp [hcur, Facts.account]

theorem account_step_of_none
    (h : statement? r.order (Language.ofFileName file) s.inBlock line = none) :
    (r.step file s line).facts.account id = s.facts.account id := by
  rw [Facts.account, Facts.record, records_step_of_none h, (counts_step h).2.2.1]
  rfl

end Annotations.Reader

end ThreatModel
