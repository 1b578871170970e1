import ThreatModel.CallGraph
import ThreatModel.Proofs.Annotations.Spans
import ThreatModel.Proofs.Text.Lines

/-!
# Line ends — which of them a text has carries no meaning

Sources and call graphs are read line by line, so a text that is written with other line ends
(`Text.Writing`) is read alike.  The lines that were written are also the ones that are counted: a
record's site is a line of its source by its place among them, whatever other separators stand in
the lines (`site_foldl`).
-/

namespace ThreatModel.Annotations.Reader

variable {rebind : Bool} {file line : String} {s : State} {id : RecordId} {site : CodeSite}

/-- A line gives a site to the current record only. -/
theorem site_step (hs : s.Stored) : (((usual rebind).step file s line).facts.record id).site =
    (if s.current = some id then siteIn? file (s.facts.record id).shortName line (s.line + 1)
      else none).or (s.facts.record id).site := by
  have hst : statement? rules (Language.ofFileName file) s.inBlock line = _ := rfl
  rw [view_step FunctionRecord.site (fun _ => rfl) hs hst,
    ← bind_site?_statement? file _ line s.inBlock]
  by_cases hcur : s.current = some id
  · rw [if_pos hcur, if_pos hcur]
    cases statement? rules (Language.ofFileName file) s.inBlock line with
    | none => rfl
    | some st => exact Statement.site_addTo
  · rw [if_neg hcur, if_neg hcur]
    rfl

/-- **A site is a line that was read**: it has the line's place as its number. -/
theorem site_foldl (lines : List String) (hs : s.Stored)
    (h : ((lines.foldl ((usual rebind).step file) s).facts.record id).site = some site) :
    (s.facts.record id).site = some site ∨
      ∃ i line name, lines[i]? = some line ∧
        siteIn? file name line (s.line + 1 + i) = some site := by
  induction lines generalizing s with
  | nil => exact .inl h
  | cons line lines ih =>
      rcases ih (stored_step hs) h with hstep | ⟨i, line', name, hline, hsite⟩
      · rw [site_step hs, Option.or_eq_some_iff] at hstep
        rcases hstep with hgiven | ⟨-, hkept⟩
        · split at hgiven
          · exact .inr ⟨0, line, _, rfl, hgiven⟩
          · cases hgiven
        · exact .inl hkept
      · rw [line_step, Nat.add_assoc _ 1 i, Nat.add_comm 1 i] at hsite
        exact .inr ⟨i + 1, line', name, hline, hsite⟩

theorem exists_match_of_siteIn? {name : String} {number : Nat}
    (h : siteIn? file name line number = some site) :
    ∃ m, (Language.ofFileName file).definition.match? line = some m ∧
      site = ⟨file, number, m.get .code⟩ := by
  obtain ⟨m, hm, hsite⟩ := Option.bind_eq_some_iff.mp h
  split at hsite
  · exact ⟨m, hm, (Option.some.inj hsite).symm⟩
  · cases hsite

/-- The lines of a text as it was written. -/
theorem linesOf_text (w : Text.Writing) :
    linesOf (String.ofList w.text) = w.lines.map String.ofList := by
  rw [linesOf, String.toList_ofList, w.lines_text]

theorem ofText_text (w : Text.Writing) : CallGraph.ofText (String.ofList w.text) =
    if w.lines = [] then .ok {}
    else do
      let g ← CallGraph.ofLines (w.lines.map String.ofList)
      return { g with events := g.events ++ [.callGraphRead g.graph.size] } := by
  have hempty : String.ofList w.text = "" ↔ w.lines = [] := by
    rw [← w.lines_text, Text.lines_eq_nil_iff, String.ofList_eq_empty_iff]
  rw [CallGraph.ofText, String.toList_ofList, w.lines_text]
  simp only [hempty]

/-- **Line ends carry no meaning.**  A text is cut into the lines that were written, whichever end
each of them has, and whether or not the last one has any.  So one reader reads the same of two
texts with the same lines, and the same call graph is read of them.  A site that a text gives counts
these lines: its number is the place of a line that is a definition in the file's language, and its
code is what that line has. -/
theorem line_ends_carry_no_meaning (w w' : Text.Writing) (h : w.lines = w'.lines) :
    Text.lines w.text = w.lines ∧
      (∀ (r : Reader) (facts : Facts) (file : String),
        r.readSource facts file (String.ofList w.text) =
          r.readSource facts file (String.ofList w'.text)) ∧
      CallGraph.ofText (String.ofList w.text) = CallGraph.ofText (String.ofList w'.text) ∧
      ∀ (rebind : Bool) (facts : Facts) (file : String) (id : RecordId) (site : CodeSite),
        (((usual rebind).readSource facts file (String.ofList w.text)).1.record id).site =
            some site →
          (facts.record id).site = some site ∨
            ∃ i line m, w.lines[i]? = some line ∧
              (Language.ofFileName file).definition.match? (String.ofList line) = some m ∧
              site = ⟨file, (i + 1 : Nat), m.get .code⟩ := by
  refine ⟨w.lines_text, fun r facts file => ?_, ?_, fun rebind facts file id site hsite => ?_⟩
  · rw [readSource, readSource, linesOf_text, linesOf_text, h]
  · rw [ofText_text, ofText_text, h]
  · rw [readSource, linesOf_text, readLines_fst] at hsite
    rcases site_foldl _ (State.stored_start file facts) hsite with hold | ⟨i, line, name, hline, hi⟩
    · exact .inl hold
    · obtain ⟨line, hget, rfl⟩ := Option.map_eq_some_iff.mp (List.getElem?_map.symm.trans hline)
      obtain ⟨m, hm, rfl⟩ := exists_match_of_siteIn? hi
      exact .inr ⟨i, line, m, hget, hm, by rw [Nat.add_comm i]; rfl⟩

/-- All three line ends, around empty lines, and separators that end no line: with the last line
ended or not, the definition is the fifth line. -/
theorem line_ends_carry_no_meaning_mixed :
    let w : Text.Writing :=
      { ended := [("// ThreatSpec M for F".toList, .returnLineFeed), ([], .lineFeed),
          ([], .carriageReturn), ("// \x0c\u0085\u2028".toList, .carriageReturn)]
        last := "func F() \x7b".toList
        isLine := by decide
        isLine_last := by decide
        apart := by decide }
    let w' : Text.Writing :=
      { ended := w.lines.map (·, .lineFeed)
        isLine := by decide
        isLine_last := by decide
        apart := by decide }
    w.lines = w'.lines ∧
      CallGraph.ofText (String.ofList w.text) = CallGraph.ofText (String.ofList w'.text) ∧
      (usual true).readSource .empty "a.go" (String.ofList w.text) =
        (usual true).readSource .empty "a.go" (String.ofList w'.text) ∧
      (((usual true).readSource .empty "a.go" (String.ofList w'.text)).1.record 0).site =
        some ⟨"a.go", 5, "F()"⟩ := by
  intro w w'
  have h : w.lines = w'.lines := by decide
  obtain ⟨-, hsource, hgraph, -⟩ := line_ends_carry_no_meaning w w' h
  exact ⟨h, hgraph, hsource _ _ _, by decide +kernel⟩

end ThreatModel.Annotations.Reader
