import Mathlib.Data.List.TakeWhile
import ThreatModel.Proofs.Annotations.Tallies

/-!
# Spans — what a record gets from the lines below its header

The span of a header reaches to the next header of its file; it is the header's block, and what is
left behind the block.  In the block every rule is tried, behind it only the rules that are tried
anywhere, and what they read there goes to the header's record only if the reader rebinds.

That is all: the account of a record, which is the record with the number of its facts, is the
header's with what is said in its span (`Header.account`).  `account_foldl_behind` and
`account_foldl_block` follow the reader through the two parts of a span, line by line;
`accounts_readLines` and `accounts_parseAll` list the accounts of whole files, in the order of
their headers.
-/

namespace ThreatModel

namespace Account
open Annotations

/-- Adds what lines of a file say. -/
def addAll (file : String) (a : Account) (sts : List (Statement × Nat)) : Account :=
  sts.foldl (add file) a

variable {file : String} {a : Account} {sts : List (Statement × Nat)}

theorem opened_addAll : (a.addAll file sts).record.opened = a.record.opened :=
  eq_foldl (fun a : Account => a.record.opened) (fun _ _ => Statement.opened_addTo) sts a

theorem facts_addAll : (a.addAll file sts).facts = a.facts + sts.countP (·.1.isFact) := by
  induction sts generalizing a with
  | nil => rfl
  | cons st sts ih =>
      have hstep : (a.add file st).facts = a.facts + if st.1.isFact then 1 else 0 := rfl
      rw [addAll, List.foldl_cons, ← addAll, ih, hstep, List.countP_cons]
      omega

end Account

namespace Facts

/-- The accounts of all records, in order of creation. -/
def accounts (f : Facts) : List Account := (List.range f.records.length).map f.account

theorem length_accounts (f : Facts) : f.accounts.length = f.records.length := by
  rw [accounts, List.length_map, List.length_range]

theorem getElem?_accounts (f : Facts) (i : Nat) :
    f.accounts[i]? = if i < f.records.length then some (f.account i) else none := by
  rw [accounts, List.getElem?_map]
  split
  · rename_i hi
    rw [List.getElem?_range hi, Option.map_some]
  · rename_i hi
    rw [List.getElem?_eq_none (by simpa using hi), Option.map_none]

theorem map_record_accounts (f : Facts) : f.accounts.map Account.record = f.records := by
  refine List.ext_getElem? fun i => ?_
  rw [List.getElem?_map, getElem?_accounts]
  split
  · rename_i hi
    rw [Option.map_some, account, record, List.getD_eq_getElem?_getD, List.getElem?_eq_getElem hi]
    rfl
  · rename_i hi
    rw [List.getElem?_eq_none (Nat.le_of_not_lt hi), Option.map_none]

end Facts

namespace Annotations

/-! ### Spans -/

/-- The lines up to the next header, given those below a header. -/
def span (below : List String) : List String := below.takeWhile fun line => !isHeader line

/-- The lines of the span behind the block. -/
def behindBlock (language : Language) (below : List String) : List String :=
  (span below).drop (block language below).length

/-- What lines say inside or outside of a block, each with its number; `first` is that of the first
line. -/
def statementsIn (language : Language) (inBlock : Bool) (first : Nat) (lines : List String) :
    List (Statement × Nat) :=
  (lines.zipIdx first).filterMap fun (line, number) =>
    (statement? rules language inBlock line).map (·, number)

/-- What the lines below a header, numbered from `first`, say to its record. -/
def saidBelow (rebind : Bool) (language : Language) (first : Nat) (below : List String) :
    List (Statement × Nat) :=
  statementsIn language true first (block language below) ++
    if rebind then
      statementsIn language false (first + (block language below).length)
        (behindBlock language below)
    else []

/-- A header line, with the lines above and below it in its file. -/
structure Header where
  file : String
  above : List String
  line : String
  below : List String
deriving DecidableEq, Repr

namespace Header

def language (h : Header) : Language := Language.ofFileName h.file

/-- The number of the line below the header. -/
def first (h : Header) : Nat := h.above.length + 2

/-- The lines of the header's block. -/
def block (h : Header) : List String := Annotations.block h.language h.below

/-- The lines of its span behind the block. -/
def behind (h : Header) : List String := behindBlock h.language h.below

/-- The record as the header opens it. -/
def opened (h : Header) : FunctionRecord := (heading? (packageAbove h.above) h.line).getD default

/-- What the header's span makes of its record. -/
def account (rebind : Bool) (h : Header) : Account :=
  Account.addAll h.file ⟨h.opened, 0⟩ (saidBelow rebind h.language h.first h.below)

end Header

/-- The headers among lines of a file that stand below the lines `above`. -/
def headersIn (file : String) (above : List String) : List String → List Header
  | []            => []
  | line :: below =>
    (if isHeader line then [⟨file, above, line, below⟩] else []) ++
      headersIn file (above ++ [line]) below

variable {l : Language} {inBlock : Bool} {line : String} {lines : List String} {first : Nat}

theorem span_cons (hh : isHeader line = false) : span (line :: lines) = line :: span lines :=
  List.takeWhile_cons_of_pos (by simp [hh])

theorem span_cons_of_isHeader (hh : isHeader line = true) : span (line :: lines) = [] :=
  List.takeWhile_cons_of_neg (by simp [hh])

/-- A span is its block and what is left behind it. -/
theorem block_append_behindBlock (l : Language) (lines : List String) :
    block l lines ++ behindBlock l lines = span lines := by
  have hprefix : block l lines <+: span lines := by
    have hblock : block l lines = (span lines).takeWhile (isRuled l) := by
      rw [span, List.takeWhile_takeWhile, block]
      simp
    exact hblock ▸ List.takeWhile_prefix _
  exact List.prefix_iff_eq_append.mp hprefix

theorem behindBlock_cons_of_isRuled (hh : isHeader line = false) (hr : isRuled l line = true) :
    behindBlock l (line :: lines) = behindBlock l lines := by
  rw [behindBlock, block_cons_of_isRuled hh hr, span_cons hh]
  rfl

theorem behindBlock_cons_of_not_isRuled (hr : isRuled l line = false) :
    behindBlock l (line :: lines) = span (line :: lines) := by
  rw [behindBlock, block_cons_of_not_isRuled hr]
  rfl

theorem statementsIn_cons : statementsIn l inBlock first (line :: lines) =
    ((statement? rules l inBlock line).map (·, first)).toList ++
      statementsIn l inBlock (first + 1) lines := by
  cases hst : statement? rules l inBlock line <;> simp [statementsIn, List.zipIdx_cons, hst]

theorem saidBelow_of_isHeader {rebind : Bool} (hh : isHeader line = true) :
    saidBelow rebind l first (line :: lines) = [] := by
  rw [saidBelow, behindBlock, block_cons_of_isHeader hh, span_cons_of_isHeader hh]
  cases rebind <;> rfl

/-- A line with a statement in a block belongs to the block. -/
theorem saidBelow_of_some {rebind : Bool} {st : Statement} (hh : isHeader line = false)
    (hst : statement? rules l true line = some st) : saidBelow rebind l first (line :: lines) =
      (st, first) :: saidBelow rebind l (first + 1) lines := by
  have hr : isRuled l line = true := by
    obtain ⟨r, -, hr⟩ := exists_read_of_statement? hst
    exact isRuled_iff.mpr ⟨r, by rw [hr]; rfl⟩
  rw [saidBelow, block_cons_of_isRuled hh hr, behindBlock_cons_of_isRuled hh hr, statementsIn_cons,
    hst, List.length_cons, Nat.add_comm (block l lines).length, ← Nat.add_assoc]
  rfl

/-- A line without one ends the block. -/
theorem saidBelow_of_none {rebind : Bool} (hst : statement? rules l true line = none) :
    saidBelow rebind l first (line :: lines) =
      if rebind then statementsIn l false (first + 1) (span lines) else [] := by
  have hnone : ∀ r : Rule, r.read? l line = none := fun r =>
    statement?_eq_none_iff.mp hst r fun _ => rfl
  have hr : isRuled l line = false := Bool.eq_false_iff.mpr fun hruled => by
    obtain ⟨r, hr⟩ := isRuled_iff.mp hruled
    rw [hnone r] at hr
    cases hr
  have hout : statement? rules l false line = none := statement?_eq_none_iff.mpr fun r _ => hnone r
  rw [saidBelow, block_cons_of_not_isRuled hr, behindBlock_cons_of_not_isRuled hr,
    span_cons (isHeader_eq_false hst), statementsIn_cons, hout]
  rfl

/-! ### Calls and sites -/

/-- The line declares calls. -/
def declaresCalls (line : String) : Bool := (Form.calls.read? line).isSome

/-- The site that a line of a file gives to the function of a name, if it defines that function. -/
def siteIn? (file name line : String) (number : Nat) : Option CodeSite :=
  ((Language.ofFileName file).definition.match? line).bind fun m =>
    if (Text.words (m.get .function).toList).getLast?.map String.ofList = some name then
      some ⟨file, number, m.get .code⟩
    else none

/-- The sites that lines of a file, numbered from `first`, give to the function of a name. -/
def sitesIn (file name : String) (first : Nat) (lines : List String) : List CodeSite :=
  (lines.zipIdx first).filterMap fun (line, number) => siteIn? file name line number

namespace Statement

variable {st : Statement} {file : String} {number : Int} {r : FunctionRecord}

/-- The calls that a statement declares. -/
def declared : Statement → List DeclaredCall
  | calls cs => cs
  | _        => []

/-- The site that a statement gives to the function of a name. -/
def site? (file : String) (number : Int) (name : String) : Statement → Option CodeSite
  | definition f c =>
    if (Text.words f.toList).getLast?.map String.ofList = some name then some ⟨file, number, c⟩
    else none
  | _ => none

theorem calls_addTo : (st.addTo file number r).calls = r.calls ++ st.declared := by
  cases st with
  | definition f c => simp only [addTo, declared]; split <;> simp
  | _ => simp [addTo, declared]

theorem site_addTo :
    (st.addTo file number r).site = (st.site? file number r.shortName).or r.site := by
  cases st with
  | definition f c => simp only [addTo, site?]; split <;> rfl
  | _ => rfl

/-- What is said outside of blocks concerns the calls and the site only. -/
theorem addTo_of_open (h : st.rule.blockOnly = false) : st.addTo file number r =
    { r with
      calls := (st.addTo file number r).calls
      site := (st.addTo file number r).site } := by
  cases st with
  | definition f c => simp only [addTo]; split <;> rfl
  | mitigation | exposure | capability | flow | test => cases h
  | _ => rfl

end Statement

/-- What is stated in lines is stated by one of them. -/
theorem exists_mem_of_mem_statementsIn {st : Statement × Nat}
    (h : st ∈ statementsIn l inBlock first lines) :
    ∃ line ∈ lines, statement? rules l inBlock line = some st.1 := by
  obtain ⟨⟨line, number⟩, hline, hst⟩ := List.mem_filterMap.mp h
  obtain ⟨st, hstated, rfl⟩ := Option.map_eq_some_iff.mp hst
  exact ⟨line, List.fst_mem_of_mem_zipIdx hline, hstated⟩

theorem rule_of_mem_statementsIn {st : Statement × Nat}
    (h : st ∈ statementsIn l false first lines) : st.1.rule.blockOnly = false := by
  obtain ⟨line, -, hst⟩ := exists_mem_of_mem_statementsIn h
  exact Bool.eq_false_iff.mpr fun hb => by cases inBlock_of_statement? hst hb

/-- A line that declares calls does so wherever it stands. -/
theorem any_calls_statement? (l : Language) (inBlock : Bool) (line : String) :
    (statement? rules l inBlock line).any
      (fun st => st.form? = some .calls) = declaresCalls line := by
  rw [declaresCalls]
  cases hread : Form.calls.read? line with
  | some st =>
      have hst : statement? rules l inBlock line = some st :=
        statement?_of_read (r := .form .calls) hread nofun nofun
      rw [hst, Option.any_some, Form.form?_of_read? hread]
      rfl
  | none =>
      cases hst : statement? rules l inBlock line with
      | none => rfl
      | some st =>
          refine decide_eq_false fun hform => ?_
          rw [read?_of_statement? hst hform] at hread
          cases hread

/-- A fact is one of a block, or declares calls. -/
theorem Statement.isFact_eq (st : Statement) :
    st.isFact = (st.rule.blockOnly || decide (st.form? = some .calls)) := by
  cases st <;> rfl

/-- Outside of blocks a line states a fact if it declares calls. -/
theorem any_isFact_statement? (l : Language) (line : String) :
    (statement? rules l false line).any Statement.isFact = declaresCalls line := by
  rw [← any_calls_statement? l false line]
  cases hst : statement? rules l false line with
  | none => rfl
  | some st =>
      have hopen : st.rule.blockOnly = false :=
        Bool.eq_false_iff.mpr fun hb => by cases inBlock_of_statement? hst hb
      rw [Option.any_some, Option.any_some, Statement.isFact_eq, hopen, Bool.false_or]

/-- The facts that are stated outside of blocks are declared calls. -/
theorem countP_isFact_statementsIn :
    (statementsIn l false first lines).countP (·.1.isFact) = lines.countP declaresCalls := by
  induction lines generalizing first with
  | nil => rfl
  | cons line lines ih =>
      rw [statementsIn_cons, List.countP_append, ih, List.countP_cons, ← any_isFact_statement? l,
        Nat.add_comm]
      cases statement? rules l false line <;> simp [List.countP_cons]

/-- A line gives a site wherever it stands. -/
theorem bind_site?_statement? (file name line : String) (inBlock : Bool) (number : Nat) :
    (statement? rules (Language.ofFileName file) inBlock line).bind
      (Statement.site? file number name) = siteIn? file name line number := by
  rw [bind_statement? (r := .definition) rfl (by decide) fun st _ hrule => ?_]
  · rw [siteIn?, Rule.read?]
    cases (Language.ofFileName file).definition.match? line <;> rfl
  · cases st with
    | definition => exact absurd rfl hrule
    | _ => rfl

/-- The sites that are stated are those in the lines. -/
theorem filterMap_site?_statementsIn (file name : String) :
    (statementsIn (Language.ofFileName file) inBlock first lines).filterMap
      (fun st => st.1.site? file st.2 name) = sitesIn file name first lines := by
  rw [statementsIn, List.filterMap_filterMap]
  exact List.filterMap_congr fun (line, number) _ =>
    Option.bind_map.trans (bind_site?_statement? file name line inBlock number)

end Annotations

namespace Account
open Annotations

variable {file : String} {a : Account} {sts : List (Statement × Nat)}

theorem calls_addAll :
    (a.addAll file sts).record.calls = a.record.calls ++ sts.flatMap (·.1.declared) :=
  append_foldl (fun a : Account => a.record.calls) (fun _ _ => Statement.calls_addTo) sts a

/-- The last site that is stated for the record's name counts. -/
theorem site_addAll : (a.addAll file sts).record.site =
    (sts.filterMap fun st => st.1.site? file st.2 a.record.shortName).getLast?.or
      a.record.site := by
  induction sts generalizing a with
  | nil => rfl
  | cons st sts ih =>
      have hname : (a.add file st).record.shortName = a.record.shortName := by
        have hopened : (a.add file st).record.opened = a.record.opened := Statement.opened_addTo
        rw [← FunctionRecord.shortName_opened, hopened, FunctionRecord.shortName_opened]
      have hsite : (a.add file st).record.site =
          (st.1.site? file st.2 a.record.shortName).or a.record.site := Statement.site_addTo
      rw [addAll, List.foldl_cons, ← addAll, ih, hname, hsite, List.filterMap_cons]
      cases st.1.site? file st.2 a.record.shortName with
      | none => rfl
      | some site =>
          rw [List.getLast?_cons, Option.some_or, Option.some_or]
          cases (sts.filterMap fun st => st.1.site? file st.2 a.record.shortName).getLast? <;> rfl

/-- What is said outside of blocks concerns the calls and the site only. -/
theorem record_addAll_of_open (h : ∀ st ∈ sts, st.1.rule.blockOnly = false) :
    (a.addAll file sts).record = { a.record with
      calls := (a.addAll file sts).record.calls
      site := (a.addAll file sts).record.site } := by
  induction sts generalizing a with
  | nil => rfl
  | cons st sts ih =>
      obtain ⟨hst, hsts⟩ := List.forall_mem_cons.mp h
      have hadd : (a.add file st).record = { a.record with
          calls := (a.add file st).record.calls
          site := (a.add file st).record.site } := Statement.addTo_of_open hst
      rw [addAll, List.foldl_cons, ← addAll, ih hsts, hadd]

end Account

namespace Annotations

variable {l : Language} {line : String} {lines : List String}

/-! ### A reader in a span -/

namespace Reader

variable {rebind : Bool} {file : String} {s : State} {id : RecordId}

/-- A reader that rebinds keeps the current record up to the next header. -/
theorem current_step_of_rebind (hh : isHeader line = false) :
    ((usual true).step file s line).current = s.current := by
  cases hst : statement? rules (Language.ofFileName file) s.inBlock line with
  | some st => exact current_step_of_some hst hh
  | none => exact current_step_of_none hst

/-- The next header adds nothing to the account, and the lines below it go to another. -/
theorem account_foldl_of_isHeader (hid : id < s.facts.records.length) (hh : isHeader line = true) :
    ((line :: lines).foldl ((usual rebind).step file) s).facts.account id =
      s.facts.account id := by
  obtain ⟨st, hread, hst⟩ := statement?_of_isHeader (Language.ofFileName file) s.inBlock hh
  rw [List.foldl_cons, account_foldl_of_lt lines (Nat.lt_of_lt_of_le hid (length_le_step ..)),
    account_step_of_some hst hid, Account.add_header (Form.form?_of_read? hread), ite_self]
  intro i hi
  rw [current_step_of_isHeader hh] at hi
  exact Option.some.inj hi ▸ hid

/-- **Behind its block a record gets what the rest of its span says**, if the reader rebinds. -/
theorem account_foldl_behind (lines : List String) (hid : id < s.facts.records.length)
    (hcur : s.current = some id) (hb : s.inBlock = false) :
    (lines.foldl ((usual true).step file) s).facts.account id =
      (s.facts.account id).addAll file
        (statementsIn (Language.ofFileName file) false (s.line + 1) (span lines)) := by
  induction lines generalizing s with
  | nil => rfl
  | cons line lines ih =>
      cases hh : isHeader line with
      | true =>
          rw [account_foldl_of_isHeader hid hh, span_cons_of_isHeader hh]
          rfl
      | false =>
          have hlen := Nat.lt_of_lt_of_le hid (length_le_step true file line)
          have hcur' : ((usual true).step file s line).current = some id :=
            (current_step_of_rebind hh).trans hcur
          have hb' : ((usual true).step file s line).inBlock = false := by
            rw [inBlock_step, hh, hb]
            rfl
          rw [List.foldl_cons, ih hlen hcur' hb', line_step, span_cons hh, statementsIn_cons, ← hb]
          cases hst : statement? rules (Language.ofFileName file) s.inBlock line with
          | some st =>
              rw [account_step_of_some hst hid, if_pos hcur]
              rfl
          | none =>
              rw [account_step_of_none hst]
              rfl

/-- **In its block a record gets what the block says, and then what the rest of its span says**, if
the reader rebinds. -/
theorem account_foldl_block (lines : List String) (hid : id < s.facts.records.length)
    (hcur : s.current = some id) (hb : s.inBlock = true) :
    (lines.foldl ((usual rebind).step file) s).facts.account id =
      (s.facts.account id).addAll file
        (saidBelow rebind (Language.ofFileName file) (s.line + 1) lines) := by
  induction lines generalizing s with
  | nil => cases rebind <;> rfl
  | cons line lines ih =>
      cases hh : isHeader line with
      | true =>
          rw [account_foldl_of_isHeader hid hh, saidBelow_of_isHeader hh]
          rfl
      | false =>
          have hlen := Nat.lt_of_lt_of_le hid (length_le_step rebind file line)
          cases hst : statement? rules (Language.ofFileName file) true line with
          | some st =>
              have hstep :
                  statement? rules (Language.ofFileName file) s.inBlock line = some st := by
                rw [hb, hst]
              have hb' : ((usual rebind).step file s line).inBlock = true := by
                obtain ⟨r, -, hr⟩ := exists_read_of_statement? hst
                rw [inBlock_step, hb, isRuled_iff.mpr ⟨r, by rw [hr]; rfl⟩]
                simp
              have hcur' : ((usual rebind).step file s line).current = some id :=
                (current_step_of_some hstep hh).trans hcur
              rw [List.foldl_cons, ih hlen hcur' hb', line_step, saidBelow_of_some hh hst,
                account_step_of_some hstep hid, if_pos hcur]
              rfl
          | none =>
              have hstep : statement? rules (Language.ofFileName file) s.inBlock line = none := by
                rw [hb, hst]
              have hb' : ((usual rebind).step file s line).inBlock = false := by
                rw [step_of_none hstep, State.inBlock_store]
                rfl
              have hcur' : ((usual rebind).step file s line).current =
                  if rebind then some id else none := by
                rw [current_step_of_none hstep, hcur]
              have haccount : ((usual rebind).step file s line).facts.account id =
                  s.facts.account id := account_step_of_none hstep
              rw [List.foldl_cons, saidBelow_of_none hst, ← haccount]
              cases rebind with
              | true =>
                  rw [account_foldl_behind lines hlen hcur' hb', line_step]
                  rfl
              | false =>
                  -- no record is current any more
                  exact account_foldl_of_lt lines hlen fun i hi => by
                    rw [hcur'] at hi
                    cases hi

/-- A header's record is the one it opens, and nothing is counted for it. -/
theorem account_step_new (hc : s.facts.CountsRecords) (hh : isHeader line = true) :
    ((usual rebind).step file s line).facts.account s.facts.records.length =
      ⟨(heading? s.package line).getD default, 0⟩ := by
  obtain ⟨m, hm, hrecord⟩ := record_step_of_isHeader rebind file s hh
  obtain ⟨st, hread, hst⟩ := statement?_of_isHeader (Language.ofFileName file) s.inBlock hh
  have hfact : st.isFact = false := by
    have hform := Form.form?_of_read? hread
    cases st with
    | header => rfl
    | _ => cases hform
  have hcovered : ((usual rebind).step file s line).facts.covered = s.facts.covered := by
    rw [(counts_step (r := usual rebind) hst).2.2.1, Option.any_some, hfact]
    rfl
  rw [Facts.account, hrecord, hcovered, hc.count_eq_zero (Nat.le_refl _), heading?, if_pos hh, hm]
  rfl

end Reader

/-! ### Files -/

theorem length_headersIn (file : String) (above lines : List String) :
    (headersIn file above lines).length = lines.countP isHeader := by
  induction lines generalizing above with
  | nil => rfl
  | cons line lines ih =>
      rw [headersIn, List.length_append, ih, List.countP_cons]
      split <;> simp [Nat.add_comm]

/-- A header stands where as many headers are above it as its place in the list says. -/
theorem of_getElem?_headersIn {file : String} {above : List String} {i : Nat} {h : Header}
    (hget : (headersIn file above lines)[i]? = some h) :
    ∃ start, lines = start ++ h.line :: h.below ∧ h.file = file ∧ h.above = above ++ start ∧
      isHeader h.line = true ∧ start.countP isHeader = i := by
  induction lines generalizing above i with
  | nil => cases hget
  | cons line lines ih =>
      rw [headersIn] at hget
      cases hh : isHeader line with
      | true =>
          rw [hh, if_pos rfl, List.singleton_append] at hget
          cases i with
          | zero =>
              cases hget
              exact ⟨[], rfl, rfl, (List.append_nil _).symm, hh, rfl⟩
          | succ i =>
              obtain ⟨start, rfl, hfile, habove, hline, rfl⟩ := ih hget
              refine ⟨line :: start, rfl, hfile, ?_, hline, ?_⟩
              · rw [habove, List.append_assoc, List.singleton_append]
              · rw [List.countP_cons, hh, if_pos rfl]
      | false =>
          rw [hh, if_neg Bool.false_ne_true, List.nil_append] at hget
          obtain ⟨start, rfl, hfile, habove, hline, rfl⟩ := ih hget
          refine ⟨line :: start, rfl, hfile, ?_, hline, ?_⟩
          · rw [habove, List.append_assoc, List.singleton_append]
          · rw [List.countP_cons, hh]
            rfl

namespace Reader

variable {rebind : Bool} {file : String} {facts : Facts}

theorem line_foldl (s : State) (lines : List String) :
    (lines.foldl ((usual rebind).step file) s).line = s.line + lines.length := by
  induction lines generalizing s with
  | nil => rfl
  | cons line lines ih =>
      rw [List.foldl_cons, ih, line_step, List.length_cons]
      omega

/-- The account of a header's record is what its span makes of it. -/
theorem account_readLines (hc : facts.CountsRecords) {start : List String} {h : Header}
    (hlines : lines = start ++ h.line :: h.below) (habove : h.above = start)
    (hh : isHeader h.line = true) :
    ((usual rebind).readLines h.file facts lines).1.account
      (facts.records.length + start.countP isHeader) = h.account rebind := by
  have hid : (start.foldl ((usual rebind).step h.file) (.start h.file facts)).facts.records.length =
      facts.records.length + start.countP isHeader := length_foldl start
  have hpackage : (start.foldl ((usual rebind).step h.file) (.start h.file facts)).package =
      packageAbove start := (package_foldl start).trans Option.or_none
  have hline : (start.foldl ((usual rebind).step h.file) (.start h.file facts)).line =
      start.length := (line_foldl _ start).trans (Nat.zero_add _)
  have hcounts : (start.foldl ((usual rebind).step h.file)
      (.start h.file facts)).facts.CountsRecords :=
    countsRecords_foldl start hc (State.stored_start h.file facts)
  rw [hlines, ← hid, readLines_fst, List.foldl_append, List.foldl_cons]
  -- of the lines above only the number of records, the package and the line number matter
  generalize start.foldl ((usual rebind).step h.file) _ = s at hpackage hline hcounts
  have hlen : s.facts.records.length <
      ((usual rebind).step h.file s h.line).facts.records.length := by
    rw [length_step, hh]
    exact Nat.lt_succ_self _
  have hin : ((usual rebind).step h.file s h.line).inBlock = true := by
    rw [inBlock_step, hh, Bool.true_or]
  rw [account_foldl_block h.below hlen (current_step_of_isHeader hh) hin,
    account_step_new hcounts hh, line_step, hpackage, hline, ← habove]
  rfl

/-- **The accounts of a file are those of its headers**, behind the accounts there are. -/
theorem accounts_readLines (hc : facts.CountsRecords) (lines : List String) :
    ((usual rebind).readLines file facts lines).1.accounts =
      facts.accounts ++ (headersIn file [] lines).map (Header.account rebind) := by
  have hlen : ((usual rebind).readLines file facts lines).1.records.length =
      facts.records.length + (headersIn file [] lines).length := by
    rw [length_readLines, length_headersIn]
  refine List.ext_getElem? fun i => ?_
  rw [Facts.getElem?_accounts, hlen]
  rcases Nat.lt_or_ge i facts.records.length with hi | hi
  · have hold : ((usual rebind).readLines file facts lines).1.account i = facts.account i :=
      account_foldl_of_lt lines hi fun i hi => by cases hi
    rw [if_pos (Nat.lt_add_right _ hi), hold,
      List.getElem?_append_left (by rwa [Facts.length_accounts]), Facts.getElem?_accounts,
      if_pos hi]
  · obtain ⟨j, rfl⟩ := Nat.exists_eq_add_of_le hi
    rw [List.getElem?_append_right (by rwa [Facts.length_accounts]), Facts.length_accounts,
      Nat.add_sub_cancel_left, List.getElem?_map]
    cases hget : (headersIn file [] lines)[j]? with
    | none =>
        rw [if_neg fun h => ?_]
        · rfl
        · exact Nat.not_lt_of_le (List.getElem?_eq_none_iff.mp hget) (Nat.lt_of_add_lt_add_left h)
    | some h =>
        obtain ⟨start, hlines, rfl, habove, hh, rfl⟩ := of_getElem?_headersIn hget
        rw [account_readLines hc hlines habove hh, if_pos]
        · rfl
        · exact Nat.add_lt_add_left (List.getElem?_eq_some_iff.mp hget).1 _

end Reader

/-! ### Several files -/

/-- The headers of a source. -/
def headersOf (source : String × String) : List Header :=
  headersIn source.1 [] (Reader.linesOf source.2)

/-- **The accounts of any parses are those of their headers**, in order. -/
theorem accounts_parseAll {facts : Facts} (hc : facts.CountsRecords) (ps : List Parse) :
    (parseAll facts ps).accounts =
      facts.accounts ++ ps.flatMap fun p => (headersOf p.source).map (Header.account p.rebind) := by
  induction ps generalizing facts with
  | nil => exact (List.append_nil _).symm
  | cons p ps ih =>
      have hp : ((Reader.usual p.rebind).readSource facts p.file p.text).1.accounts =
          facts.accounts ++ (headersOf p.source).map (Header.account p.rebind) :=
        Reader.accounts_readLines hc _
      rw [List.flatMap_cons, ← List.append_assoc, ← hp]
      exact ih (Reader.countsRecords_foldl _ hc (State.stored_start p.file facts))

end Annotations

end ThreatModel
