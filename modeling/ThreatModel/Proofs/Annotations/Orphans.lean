import Mathlib.Data.List.DropRight
import Mathlib.Data.List.Induction
import ThreatModel.Proofs.Annotations.Conservation

/-!
# Orphans — facts that stand where there is no record for them

A record is current from its header to the end of its block, and on to the next header if the reader
rebinds; elsewhere facts are orphans.  `current_eq_none_iff` says where that is, by the lines above.

An orphan changes nothing but the log, and is in the log only if it declares calls: the other forms
are not even tried outside of blocks (`step_orphan`).  `events_foldl` lists what is reported.
-/

namespace ThreatModel.Annotations

/-! ### Where no record is current -/

/-- The lines behind the last header, or all lines if there is none. -/
def behindHeaders (lines : List String) : List String :=
  lines.rtakeWhile fun line => !isHeader line

/-- No record is current below these lines: there is no header among them, or the block of the last
one has ended and the reader does not rebind. -/
def NoneCurrent (rebind : Bool) (l : Language) (above : List String) : Prop :=
  (∀ line ∈ above, isHeader line = false) ∨
    rebind = false ∧ ∃ line ∈ behindHeaders above, isRuled l line = false

/-- In its block a reader has a current record; behind it, only if it rebinds. -/
structure State.Aligned (rebind : Bool) (s : State) : Prop where
  current_of_inBlock : s.inBlock = true → s.current ≠ none
  inBlock_of_current : rebind = false → s.current ≠ none → s.inBlock = true

variable {rebind : Bool} {l : Language} {above : List String} {file line : String} {s : State}
  {f : Form}

instance : Decidable (NoneCurrent rebind l above) := inferInstanceAs (Decidable (_ ∨ _ ∧ _))

/-- The lines that declare calls where no record is current, of lines that stand below the lines
`above`. -/
def orphanedCalls (rebind : Bool) (l : Language) (above : List String) : List String → List String
  | []            => []
  | line :: lines =>
    (if NoneCurrent rebind l above ∧ declaresCalls line = true then [line] else []) ++
      orphanedCalls rebind l (above ++ [line]) lines

theorem State.Aligned.inBlock_of_current_eq_none (h : s.Aligned rebind) (hcur : s.current = none) :
    s.inBlock = false :=
  Bool.eq_false_iff.mpr fun hin => h.current_of_inBlock hin hcur

theorem not_noneCurrent_concat (h : isHeader line = true) :
    ¬ NoneCurrent rebind l (above ++ [line]) := by
  rintro (hnone | ⟨-, line', hline', -⟩)
  · rw [hnone line (by simp)] at h
    cases h
  · rw [behindHeaders, List.rtakeWhile_concat, if_neg (by simp [h])] at hline'
    cases hline'

/-- A line that is no header ends a block if no rule reads it. -/
theorem noneCurrent_concat (h : isHeader line = false) : NoneCurrent rebind l (above ++ [line]) ↔
    NoneCurrent rebind l above ∨ rebind = false ∧ isRuled l line = false := by
  have hbehind : behindHeaders (above ++ [line]) = behindHeaders above ++ [line] := by
    rw [behindHeaders, List.rtakeWhile_concat, if_pos (by rw [h]; rfl), behindHeaders]
  have hheaders : (∀ line' ∈ above ++ [line], isHeader line' = false) ↔
      ∀ line' ∈ above, isHeader line' = false := by
    rw [List.forall_mem_append, List.forall_mem_singleton]
    exact and_iff_left h
  have hends : (∃ line' ∈ behindHeaders above ++ [line], isRuled l line' = false) ↔
      (∃ line' ∈ behindHeaders above, isRuled l line' = false) ∨ isRuled l line = false := by
    simp only [List.mem_append, List.mem_singleton, or_and_right, exists_or, exists_eq_left]
  rw [NoneCurrent, hheaders, hbehind, hends, and_or_left, ← or_assoc, ← NoneCurrent]

namespace Reader

theorem aligned_start (file : String) (facts : Facts) : (State.start file facts).Aligned rebind :=
  ⟨nofun, fun _ h => absurd rfl h⟩

/-- **A line keeps the two in step.** -/
theorem aligned_step (h : s.Aligned rebind) :
    ((usual rebind).step file s line).Aligned rebind := by
  cases hh : isHeader line with
  | true =>
      have hin : ((usual rebind).step file s line).inBlock = true := by
        rw [inBlock_step, hh, Bool.true_or]
      have hcur : ((usual rebind).step file s line).current = some s.facts.records.length :=
        current_step_of_isHeader hh
      exact ⟨fun _ => by rw [hcur]; exact nofun, fun _ _ => hin⟩
  | false =>
      cases hst : statement? rules (Language.ofFileName file) s.inBlock line with
      | some st =>
          have hin : ((usual rebind).step file s line).inBlock = s.inBlock := by
            rw [step_of_some hst, State.inBlock_store, State.apply_eq]
            simp [form?_ne_header hst hh]
          have hcur : ((usual rebind).step file s line).current = s.current :=
            current_step_of_some hst hh
          constructor <;> rw [hin, hcur]
          · exact h.current_of_inBlock
          · exact h.inBlock_of_current
      | none =>
          refine ⟨fun hin => ?_, fun hrebind hcur => ?_⟩
          · rw [step_of_none hst, State.inBlock_store] at hin
            cases hin
          · rw [current_step_of_none hst, hrebind] at hcur
            exact absurd rfl hcur

theorem aligned_foldl (rebind : Bool) (file : String) (facts : Facts) (lines : List String) :
    (lines.foldl ((usual rebind).step file) (.start file facts)).Aligned rebind :=
  lines.foldlRecOn _ (aligned_start file facts) fun _ h _ _ => aligned_step h

/-- A line that is no header takes away the current record if it ends the block and the reader does
not rebind. -/
theorem current_step_eq_none_iff (h : s.Aligned rebind) (hh : isHeader line = false) :
    ((usual rebind).step file s line).current = none ↔
      s.current = none ∨ rebind = false ∧ isRuled (Language.ofFileName file) line = false := by
  cases hst : statement? rules (Language.ofFileName file) s.inBlock line with
  | some st =>
      obtain ⟨r, -, hr⟩ := exists_read_of_statement? hst
      have hruled := isRuled_iff.mpr ⟨r, Option.isSome_of_mem hr⟩
      rw [current_step_of_some hst hh, hruled]
      simp
  | none =>
      rw [current_step_of_none hst]
      cases hrebind : rebind with
      | true => simp
      | false =>
          by_cases hcur : s.current = none
          · simp [hcur]
          · have hin : ((usual rebind).step file s line).inBlock = _ := inBlock_step
            rw [step_of_none hst, State.inBlock_store, hh, h.inBlock_of_current hrebind hcur] at hin
            exact iff_of_true rfl (.inr ⟨rfl, hin.symm⟩)

/-- **Where no record is current**, by the lines above. -/
theorem current_eq_none_iff (rebind : Bool) (file : String) (facts : Facts) (above : List String) :
    (above.foldl ((usual rebind).step file) (.start file facts)).current = none ↔
      NoneCurrent rebind (Language.ofFileName file) above := by
  induction above using List.reverseRecOn with
  | nil => exact iff_of_true rfl (.inl (List.forall_mem_nil _))
  | append_singleton above line ih =>
      rw [List.foldl_append, List.foldl_cons, List.foldl_nil]
      cases hh : isHeader line with
      | true =>
          rw [current_step_of_isHeader hh]
          exact iff_of_false nofun (not_noneCurrent_concat hh)
      | false =>
          rw [current_step_eq_none_iff (aligned_foldl rebind file facts above) hh, ih,
            noneCurrent_concat hh]

/-! ### What becomes of orphans -/

/-- A line without a statement changes nothing where no record is current. -/
theorem step_of_current_eq_none (h : s.Aligned rebind) (hcur : s.current = none)
    (hst : statement? rules (Language.ofFileName file) false line = none) :
    (usual rebind).step file s line = { s with line := s.line + 1 } := by
  have hout : s.inBlock = false := h.inBlock_of_current_eq_none hcur
  obtain ⟨facts, number, inBlock, package, current, events⟩ := s
  obtain rfl : current = none := hcur
  obtain rfl : inBlock = false := hout
  rw [step_of_none hst]
  cases rebind <;> rfl

/-- **An orphan changes nothing but the log**, and is in the log only if it declares calls. -/
theorem step_orphan (h : s.Aligned rebind) (hcur : s.current = none)
    (hf : f ∈ Form.calls :: factForms) (hread : (f.read? line).isSome) :
    (usual rebind).step file s line =
      { s with
        line := s.line + 1
        events := s.events ++ if f = .calls then [.orphaned line] else [] } := by
  rcases List.mem_cons.mp hf with rfl | hf
  · obtain ⟨st, hst⟩ := Option.isSome_iff_exists.mp hread
    have hstated : statement? rules (Language.ofFileName file) s.inBlock line = some st :=
      statement?_of_read (r := .form .calls) hst nofun nofun
    obtain ⟨m, -, rfl⟩ := Option.map_eq_some_iff.mp hst
    rw [step_of_some hstated]
    obtain ⟨facts, number, inBlock, package, current, events⟩ := s
    obtain rfl : current = none := hcur
    rfl
  · have hne : f ≠ .calls := by
      rintro rfl
      exact absurd (mem_factForms_iff.mp hf) (by decide)
    rw [step_of_current_eq_none h hcur (statement?_fact_outside hf hread), if_neg hne,
      List.append_nil]

/-- A line is reported if it declares calls and no record is current. -/
theorem events_step_of_aligned (h : s.Aligned rebind) :
    ((usual rebind).step file s line).events = s.events ++
      if s.current = none ∧ declaresCalls line = true then [.orphaned line] else [] := by
  have hfact := any_isFact_statement? (Language.ofFileName file) line
  have hst : statement? rules (Language.ofFileName file) s.inBlock line = _ := rfl
  rw [events_step hst]
  by_cases hcur : s.current = none
  · rw [h.inBlock_of_current_eq_none hcur, hfact]
    simp [hcur]
  · simp [hcur]

/-- **What is reported of the lines of a file**: those that declare calls where no record is
current. -/
theorem events_foldl (file : String) (facts : Facts) (above lines : List String) :
    ((above ++ lines).foldl ((usual rebind).step file) (.start file facts)).events =
      (above.foldl ((usual rebind).step file) (.start file facts)).events ++
        (orphanedCalls rebind (Language.ofFileName file) above lines).map .orphaned := by
  induction lines generalizing above with
  | nil => simp [orphanedCalls]
  | cons line lines ih =>
      have hstep : ((usual rebind).step file _ line).events = _ :=
        events_step_of_aligned (aligned_foldl rebind file facts above)
      simp only [current_eq_none_iff] at hstep
      rw [List.append_cons, ih, List.foldl_append, List.foldl_cons, List.foldl_nil, hstep,
        orphanedCalls, List.map_append, List.append_assoc]
      split <;> rfl

/-! ### The log is not read -/

theorem store_log (s : State) (e : List Event) :
    ({ s with events := e } : State).store = { s.store with events := e } := by
  obtain ⟨facts, line, inBlock, package, current, events⟩ := s
  cases current <;> rfl

theorem step_log (r : Reader) (file line : String) (s : State) (e : List Event) :
    ∃ e', r.step file { s with events := e } line = { r.step file s line with events := e' } := by
  cases hst : statement? r.order (Language.ofFileName file) s.inBlock line with
  | some st =>
      have hlog : ∃ e', ({ s with events := e, line := s.line + 1 } : State).apply file line st =
          { ({ s with line := s.line + 1 } : State).apply file line st with events := e' } := by
        rw [State.apply_eq, State.apply_eq]
        exact ⟨_, rfl⟩
      obtain ⟨e', hlog⟩ := hlog
      rw [step_of_some hst, step_of_some (s := { s with events := e }) hst]
      exact ⟨e', (congrArg State.store hlog).trans (store_log _ e')⟩
  | none =>
      rw [step_of_none hst, step_of_none (s := { s with events := e }) hst]
      exact ⟨e, store_log (({ s with line := s.line + 1 } : State).endBlock r.rebind) e⟩

/-- **The facts do not depend on the log.** -/
theorem facts_foldl_log (r : Reader) (file : String) (lines : List String) (s : State)
    (e : List Event) : (lines.foldl (r.step file) { s with events := e }).facts =
      (lines.foldl (r.step file) s).facts := by
  induction lines generalizing s e with
  | nil => rfl
  | cons line lines ih =>
      obtain ⟨e', hstep⟩ := step_log r file line s e
      rw [List.foldl_cons, List.foldl_cons, hstep, ih]

theorem statement?_empty (l : Language) : statement? rules l false "" = none := by
  cases l <;> decide +kernel

/-- **A text with an orphan is read as if the line were empty.** -/
theorem readLines_orphan {facts : Facts} {below : List String}
    (hcur : (above.foldl ((usual rebind).step file) (.start file facts)).current = none)
    (hf : f ∈ Form.calls :: factForms) (hread : (f.read? line).isSome) :
    ((usual rebind).readLines file facts (above ++ line :: below)).1 =
      ((usual rebind).readLines file facts (above ++ "" :: below)).1 := by
  have haligned := aligned_foldl rebind file facts above
  rw [readLines_fst, readLines_fst, List.foldl_append, List.foldl_append, List.foldl_cons,
    List.foldl_cons, step_orphan haligned hcur hf hread,
    step_of_current_eq_none haligned hcur (statement?_empty _)]
  generalize above.foldl ((usual rebind).step file) (.start file facts) = s
  exact facts_foldl_log (usual rebind) file below { s with line := s.line + 1 } _

/-- **Orphans are discarded, and those that declare calls are reported.**  What is reported of a
file are, in order, the lines that declare calls where no record is current; that is so where the
lines above have no header, or the last block has ended and the reader does not rebind, and never in
a block.  A line of one of the six forms of facts that stands there changes nothing but the log, and
the facts of the file are those of the file with an empty line in its place. -/
theorem orphans_discarded (rebind : Bool) (facts : Facts) (file text : String) :
    ((usual rebind).readSource facts file text).2.map Event.message =
        ("parsing file " ++ file) ::
          (orphanedCalls rebind (Language.ofFileName file) [] (linesOf text)).map
            ("orphaned: " ++ ·) ∧
      ∀ above line below, linesOf text = above ++ line :: below →
        let s := above.foldl ((usual rebind).step file) (.start file facts)
        (s.current = none ↔ NoneCurrent rebind (Language.ofFileName file) above) ∧
          (s.inBlock = true → s.current ≠ none) ∧
          ∀ f ∈ Form.calls :: factForms, s.current = none → (f.read? line).isSome →
            (usual rebind).step file s line =
                { s with
                  line := s.line + 1
                  events := s.events ++ if f = .calls then [.orphaned line] else [] } ∧
              ((usual rebind).readSource facts file text).1 =
                ((usual rebind).readLines file facts (above ++ "" :: below)).1 := by
  refine ⟨?_, fun above line below hlines => ?_⟩
  · have hevents : ((usual rebind).readSource facts file text).2 = _ :=
      events_foldl file facts [] (linesOf text)
    rw [hevents, List.map_append, List.map_map]
    rfl
  · have haligned := aligned_foldl rebind file facts above
    refine ⟨current_eq_none_iff rebind file facts above, haligned.current_of_inBlock,
      fun f hf hcur hread => ⟨step_orphan haligned hcur hf hread, ?_⟩⟩
    rw [readSource, hlines]
    exact readLines_orphan hcur hf hread

/-- In front of the header, and behind its block when the reader does not rebind. -/
theorem orphans_discarded_outside :
    let lines := ["# Calls G", "# Exposes a to b with c", "# ThreatSpec M for F", "# Calls H", "",
      "# Tests F for b", "# Calls K"]
    let text := String.intercalate "\n" lines
    linesOf text = lines.take 5 ++ "# Tests F for b" :: ["# Calls K"] ∧
      NoneCurrent false .python (lines.take 5) ∧ (Form.test.read? "# Tests F for b").isSome ∧
      ((usual false).readSource .empty "a.py" text).2.map Event.message =
        ["parsing file a.py", "orphaned: # Calls G", "orphaned: # Calls K"] ∧
      ((usual false).readSource .empty "a.py" text).1 =
        ((usual false).readLines "a.py" .empty (lines.take 5 ++ "" :: ["# Calls K"])).1 := by
  intro lines text
  have hlines : linesOf text = lines.take 5 ++ "# Tests F for b" :: ["# Calls K"] := by
    decide +kernel
  have hnone : NoneCurrent false .python (lines.take 5) := by decide +kernel
  have hread : (Form.test.read? "# Tests F for b").isSome := by decide +kernel
  obtain ⟨hmessages, hline⟩ := orphans_discarded false .empty "a.py" text
  obtain ⟨hcurrent, -, horphan⟩ := hline _ _ _ hlines
  exact ⟨hlines, hnone, hread, hmessages.trans (by decide +kernel),
    (horphan .test (by decide) (hcurrent.mpr hnone) hread).2⟩

/-- Not every orphan is reported. -/
theorem orphan_unreported :
    ¬ ∀ (rebind : Bool) (facts : Facts) (file text : String) (above : List String) (line : String)
        (below : List String) (f : Form), linesOf text = above ++ line :: below →
      (above.foldl ((usual rebind).step file) (.start file facts)).current = none →
        f ∈ Form.calls :: factForms → (f.read? line).isSome →
          .orphaned line ∈ ((usual rebind).readSource facts file text).2 := by
  intro h
  have hevent := h true .empty "a.go"
    "// Mitigates api:gateway against injection with sanitization\n" []
    "// Mitigates api:gateway against injection with sanitization" [] .mitigation
    (by decide +kernel) rfl (by decide) (by decide +kernel)
  have hevents : ((usual true).readSource .empty "a.go"
      "// Mitigates api:gateway against injection with sanitization\n").2 =
        [.parsingFile "a.go"] := by decide +kernel
  rw [hevents] at hevent
  cases List.mem_singleton.mp hevent

end Reader

end ThreatModel.Annotations
