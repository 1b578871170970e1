import ThreatModel.Proofs.Annotations.Filing

/-!
# Records — what all records of any parses have

No line of a text has a newline in it.  So what a record has when its header opens it, and keeps
whatever a line without newlines adds to it, all records have that any parses read.  What depends on
the files that are read as well, as a site does, is kept in these files (`IsKeptIn`); what does not
is kept in any (`IsKept`).

* `IsKeptIn.parseAll`, `IsKept.parseAll`: what all records have.
-/

namespace ThreatModel.Annotations

/-- Records have this when they are opened, and keep it whatever a line of one of the files adds to
them. -/
structure IsKeptIn (files : String → Prop) (holds : FunctionRecord → Prop) : Prop where
  opened : ∀ r : FunctionRecord, holds r.opened
  addTo : ∀ {file line : String} {l : Language} {inBlock : Bool} {st : Statement} {number : Nat}
    {r : FunctionRecord}, files file → 0 < number → '\n' ∉ line.toList →
      statement? rules l inBlock line = some st → holds r → holds (st.addTo file number r)

/-- Records have this when they are opened, and keep it whatever a line adds to them. -/
structure IsKept (holds : FunctionRecord → Prop) : Prop where
  opened : ∀ r : FunctionRecord, holds r.opened
  addTo : ∀ {file line : String} {l : Language} {inBlock : Bool} {st : Statement} {number : Int}
    {r : FunctionRecord}, '\n' ∉ line.toList → statement? rules l inBlock line = some st →
      holds r → holds (st.addTo file number r)

theorem Reader.newline_not_mem_of_mem_linesOf {text line : String} (h : line ∈ linesOf text) :
    '\n' ∉ line.toList := by
  obtain ⟨l, hl, rfl⟩ := List.mem_map.mp h
  rw [String.toList_ofList]
  exact Text.newline_not_mem_of_mem_lines hl

namespace IsKeptIn

variable {files : String → Prop} {holds : FunctionRecord → Prop} {file line : String}
  {rebind : Bool} {s : State}

/-- **Records keep it line by line.** -/
theorem step (h : IsKeptIn files holds) (hfile : files file) (hn : '\n' ∉ line.toList)
    (hs : ∀ r ∈ s.facts.records, holds r) :
    ∀ r ∈ ((Reader.usual rebind).step file s line).facts.records, holds r := by
  intro r hr
  cases hst : statement? rules (Language.ofFileName file) s.inBlock line with
  | none =>
      rw [Reader.records_step_of_none hst] at hr
      exact hs r hr
  | some st =>
      have hadd : ∀ r : FunctionRecord, holds r → holds (st.addTo file (s.line + 1 : Nat) r) :=
        fun _ => h.addTo hfile (Nat.succ_pos _) hn hst
      rw [Reader.records_step_of_some hst, List.mem_append] at hr
      rcases hr with hold | hnew
      · exact s.forall_mem_onCurrent hadd hs r hold
      · cases st with
        | header m f =>
            obtain rfl := List.mem_singleton.mp hnew
            exact h.opened { model := m, function := f, package := s.package, raw := line }
        | _ => cases hnew

theorem foldl (h : IsKeptIn files holds) (hfile : files file) {lines : List String}
    (hn : ∀ line ∈ lines, '\n' ∉ line.toList) (hs : ∀ r ∈ s.facts.records, holds r) :
    ∀ r ∈ (lines.foldl ((Reader.usual rebind).step file) s).facts.records, holds r :=
  lines.foldlRecOn (motive := fun s : State => ∀ r ∈ s.facts.records, holds r) _ hs
    fun _ hs line hline => h.step hfile (hn line hline) hs

/-- **All records have it that parses of these files read.** -/
theorem parseAll (h : IsKeptIn files holds) {facts : Facts} (hf : ∀ r ∈ facts.records, holds r)
    {ps : List Parse} (hps : ∀ p ∈ ps, files p.file) :
    ∀ r ∈ (parseAll facts ps).records, holds r :=
  ps.foldlRecOn (motive := fun facts : Facts => ∀ r ∈ facts.records, holds r) _ hf
    fun _ hf p hp => h.foldl (hps p hp) (fun _ => Reader.newline_not_mem_of_mem_linesOf) hf

/-- The functions of the table have what all records have. -/
theorem of_mem_functions (h : IsKeptIn files holds) {facts : Facts}
    (hf : ∀ r ∈ facts.records, holds r) {key : String} {r : FunctionRecord}
    (hr : (key, r) ∈ facts.functions) : holds r := by
  obtain ⟨⟨key, id⟩, -, heq⟩ := List.mem_map.mp hr
  cases heq
  rw [Facts.record, List.getD_eq_getElem?_getD]
  cases hid : facts.records[id]? with
  | none => exact h.opened default
  | some r => exact hf r (List.mem_of_getElem? hid)

end IsKeptIn

namespace IsKept

variable {holds : FunctionRecord → Prop}

/-- What is kept in any files is kept in these. -/
theorem keptIn (h : IsKept holds) (files : String → Prop) : IsKeptIn files holds where
  opened := h.opened
  addTo _ _ hn hst := h.addTo hn hst

/-- **All records have it that any parses read.** -/
theorem parseAll (h : IsKept holds) {facts : Facts} (hf : ∀ r ∈ facts.records, holds r)
    (ps : List Parse) : ∀ r ∈ (parseAll facts ps).records, holds r :=
  (h.keptIn fun _ => True).parseAll hf fun _ _ => trivial

/-- The functions of the table have what all records have. -/
theorem of_mem_functions (h : IsKept holds) {facts : Facts} (hf : ∀ r ∈ facts.records, holds r)
    {key : String} {r : FunctionRecord} (hr : (key, r) ∈ facts.functions) : holds r :=
  (h.keptIn fun _ => True).of_mem_functions hf hr

end IsKept

end ThreatModel.Annotations
