import ThreatModel.Proofs.Annotations.Spans

/-!
# Attachment — the calls and the site of a record

Declared calls and definitions are read inside and outside of blocks, so they belong to a header by
its span: all lines up to the next header for a reader that rebinds, and the lines of the block only
for one that does not (`reach`).  What the reader says of them there is what stands in the lines
(`declared_saidBelow`, `sites_saidBelow`): the calls add up, and of the sites that name the function
the last one stays.

* `attached_readSource`: the calls and the site of each header's record, for every source.
-/

namespace ThreatModel.Annotations

/-- The lines whose calls and definitions go to a header's record, given the lines below it. -/
def reach (rebind : Bool) (language : Language) (below : List String) : List String :=
  if rebind then span below else block language below

/-- The calls that a line declares. -/
def callsIn (line : String) : List DeclaredCall :=
  match Form.calls.pattern.match? line with
  | some m => declaredCalls (m.get .functions) line
  | none   => []

variable {l : Language} {inBlock rebind : Bool} {line file name : String} {lines : List String}
  {first : Nat}

/-! ### What is said in the reach of a header -/

/-- A line declares its calls wherever it stands. -/
theorem declared_statement? (l : Language) (inBlock : Bool) (line : String) :
    (statement? rules l inBlock line).elim [] Statement.declared = callsIn line := by
  rw [callsIn]
  cases hm : Form.calls.pattern.match? line with
  | some m =>
      have hread : (Rule.form .calls).read? l line =
          some (.calls (declaredCalls (m.get .functions) line)) := by
        rw [Rule.read?, hm]
        rfl
      have hst : statement? rules l inBlock line = _ :=
        statement?_of_read hread (fun hblock => by cases hblock) (fun hheader => by cases hheader)
      rw [hst]
      rfl
  | none =>
      cases hst : statement? rules l inBlock line with
      | none => rfl
      | some st =>
          cases st with
          | calls cs =>
              -- only the form of calls reads a statement of calls
              have hread : Form.calls.read? line = some (.calls cs) := read?_of_statement? hst rfl
              rw [Form.read?, hm] at hread
              cases hread
          | _ => rfl

theorem declared_statementsIn :
    (statementsIn l inBlock first lines).flatMap (·.1.declared) = lines.flatMap callsIn := by
  induction lines generalizing first with
  | nil => rfl
  | cons line lines ih =>
      rw [statementsIn_cons, List.flatMap_append, ih, List.flatMap_cons,
        ← declared_statement? l inBlock line]
      cases statement? rules l inBlock line <;> simp

theorem sitesIn_append (lines lines' : List String) : sitesIn file name first (lines ++ lines') =
    sitesIn file name first lines ++ sitesIn file name (first + lines.length) lines' := by
  rw [sitesIn, List.zipIdx_append, List.filterMap_append]
  rfl

/-- **The calls that are said below a header are those in its reach.** -/
theorem declared_saidBelow (rebind : Bool) (below : List String) :
    (saidBelow rebind l first below).flatMap (·.1.declared) =
      (reach rebind l below).flatMap callsIn := by
  rw [saidBelow, List.flatMap_append, declared_statementsIn, reach]
  cases rebind with
  | true =>
      rw [if_pos rfl, if_pos rfl, declared_statementsIn, ← List.flatMap_append,
        block_append_behindBlock]
  | false => exact List.append_nil _

/-- **The sites that are said below a header are those in its reach.** -/
theorem sites_saidBelow (rebind : Bool) (below : List String) :
    (saidBelow rebind (Language.ofFileName file) first below).filterMap
        (fun st => st.1.site? file st.2 name) =
      sitesIn file name first (reach rebind (Language.ofFileName file) below) := by
  rw [saidBelow, List.filterMap_append, filterMap_site?_statementsIn, reach]
  cases rebind with
  | true =>
      rw [if_pos rfl, if_pos rfl, filterMap_site?_statementsIn, ← sitesIn_append,
        block_append_behindBlock]
  | false => exact List.append_nil _

/-! ### Records -/

namespace Reader

variable {text h : String} {above below : List String}

/-- A header's record is the one it opens, with what is said below it. -/
theorem record_readSource (rebind : Bool) (facts : Facts)
    (hlines : linesOf text = above ++ h :: below) (hh : isHeader h = true) :
    ∃ m n, Form.header.pattern.match? h = some m ∧
      ((usual rebind).readSource facts file text).1.record
          (facts.records.length + above.countP isHeader) =
        (Account.addAll file
          ⟨{ model := m.get .model, function := m.get .function, package := packageAbove above,
             raw := h }, n⟩
          (saidBelow rebind (Language.ofFileName file) (above.length + 2) below)).record := by
  have hid : (above.foldl ((usual rebind).step file) (.start file facts)).facts.records.length =
      facts.records.length + above.countP isHeader := length_foldl above
  have hpackage : (above.foldl ((usual rebind).step file) (.start file facts)).package =
      packageAbove above := (package_foldl above).trans Option.or_none
  have hline : (above.foldl ((usual rebind).step file) (.start file facts)).line = above.length :=
    (line_foldl _ above).trans (Nat.zero_add _)
  rw [readSource, hlines, ← hid, readLines_fst, List.foldl_append, List.foldl_cons]
  -- of the lines above only the number of records, the package and the line number matter
  generalize above.foldl ((usual rebind).step file) _ = s at hpackage hline ⊢
  obtain ⟨m, hm, hrecord⟩ := record_step_of_isHeader rebind file s hh
  have hlen : s.facts.records.length < ((usual rebind).step file s h).facts.records.length := by
    rw [length_step, hh]
    exact Nat.lt_succ_self _
  have hin : ((usual rebind).step file s h).inBlock = true := by rw [inBlock_step, hh, Bool.true_or]
  have haccount : (below.foldl ((usual rebind).step file)
      ((usual rebind).step file s h)).facts.account s.facts.records.length = _ :=
    account_foldl_block below hlen (current_step_of_isHeader hh) hin
  rw [line_step, hline, Facts.account, Facts.account, hrecord, hpackage] at haccount
  exact ⟨m, _, hm, congrArg Account.record haccount⟩

/-- **Calls and definitions go to the header in whose reach they stand.**  Its record has the calls
that the lines there declare, in their order, and the site of the last definition there that names
its function, if there is one. -/
theorem attached_readSource (rebind : Bool) (facts : Facts)
    (hlines : linesOf text = above ++ h :: below) (hh : isHeader h = true) :
    ∃ m, Form.header.pattern.match? h = some m ∧
      let r := ((usual rebind).readSource facts file text).1.record
        (facts.records.length + above.countP isHeader)
      let lines := reach rebind (Language.ofFileName file) below
      r.function = m.get .function ∧
        r.calls = lines.flatMap callsIn ∧
        r.site = (sitesIn file (FunctionName.afterLastDot (m.get .function)) (above.length + 2)
          lines).getLast? := by
  obtain ⟨m, n, hm, hrecord⟩ := record_readSource rebind facts hlines hh
  refine ⟨m, hm, ?_⟩
  rw [hrecord]
  refine ⟨congrArg FunctionRecord.function Account.opened_addAll, ?_, ?_⟩
  · rw [Account.calls_addAll, declared_saidBelow]
    exact List.nil_append _
  · rw [Account.site_addAll, sites_saidBelow, Option.or_none]
    rfl

/-- Two definitions and two lines of calls, the later ones behind the block. -/
theorem attached_readSource_rebound :
    let h := "// ThreatSpec M for p.F"
    let below := ["func F(a) \x7b", "// Calls x.G H", "", "func (f *T) F(b) \x7b", "// Calls K",
      "// ThreatSpec M for G", "func F(c) \x7b"]
    let text := String.intercalate "\n" (h :: below)
    linesOf text = [] ++ h :: below ∧ isHeader h = true ∧
      ∃ r, ((usual true).readSource .empty "a.go" text).1.record 0 = r ∧ r.function = "p.F" ∧
        r.calls.map DeclaredCall.callee = ["x:G", "H", "K"] ∧
        r.site = some ⟨"a.go", 5, "(f *T) F(b)"⟩ := by
  intro h below text
  have hlines : linesOf text = [] ++ h :: below := by decide +kernel
  have hh : isHeader h = true := by decide +kernel
  obtain ⟨m, hm, hfunction, hcalls, hsite⟩ := attached_readSource true .empty hlines hh
  have hname : m.get .function = "p.F" := by
    have hget : (Form.header.pattern.match? h).map (·.get .function) = some "p.F" := by
      decide +kernel
    rw [hm] at hget
    exact Option.some.inj hget
  rw [hname] at hfunction hsite
  have hcallees := congrArg (List.map DeclaredCall.callee) hcalls
  exact ⟨hlines, hh, _, rfl, hfunction, hcallees.trans (by decide +kernel),
    hsite.trans (by decide +kernel)⟩

end Reader

end ThreatModel.Annotations
