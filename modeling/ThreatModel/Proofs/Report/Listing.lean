import ThreatModel.Proofs.Report.Lines

/-!
# Listing — a report lists every fact once, and in its place

A line of a report stands under the last component heading above it, which starts with `## `, and
under the last threat heading, which starts with `### Threat: ` (`underHeadings`).  No text can
start a line of its own, so a line starts as a heading or as an entry only if it was written as one:
the lines of a threat are its heading and its entries below it (`underHeadings_threatLines`), and
those of a component its heading and those of its threats (`filter_underHeadings_componentLines`).

* `ofFacts_lists`: the headings and the entries of the report of any parses are those of the
  component table, in its order.
-/

namespace ThreatModel.Report

/-! ### How lines start -/

/-- The line starts with the mark. -/
def Starts (mark line : String) : Prop := mark.toList <+: line.toList

instance (mark line : String) : Decidable (Starts mark line) :=
  inferInstanceAs (Decidable (mark.toList <+: line.toList))

theorem starts_append (mark text : String) : Starts mark (mark ++ text) := by
  rw [Starts, String.toList_append]
  exact List.prefix_append _ _

/-- Neither text starts with the other. -/
def Apart (mark start : String) : Prop := ¬ Starts mark start ∧ ¬ Starts start mark

instance (mark start : String) : Decidable (Apart mark start) :=
  inferInstanceAs (Decidable (_ ∧ _))

theorem Apart.not_starts {mark start : String} (h : Apart mark start) (text : String) :
    ¬ Starts mark (start ++ text) := by
  intro hstarts
  rw [Starts, String.toList_append] at hstarts
  rcases List.prefix_or_prefix_of_prefix hstarts (List.prefix_append _ _) with hm | hs
  · exact h.1 hm
  · exact h.2 hs

/-! ### Lines under headings -/

/-- The last of the lines that starts with the mark. -/
def lastStarting (mark : String) (ls : List String) : Option String :=
  (ls.filter (Starts mark ·)).getLast?

/-- A line and the headings that it stands under. -/
structure Listed where
  /-- The last line above that starts with `## `. -/
  component : Option String
  /-- The last line above that starts with `### Threat: `. -/
  threat : Option String
  line : String
deriving DecidableEq, Repr

/-- Lines with the headings that they stand under, if `above` are the lines above them. -/
def underHeadings (above : List String) : List String → List Listed
  | []            => []
  | line :: below =>
    ⟨lastStarting "## " above, lastStarting "### Threat: " above, line⟩ ::
      underHeadings (above ++ [line]) below

section
variable {mark line : String} {above ls ls' : List String}

theorem lastStarting_concat_of_starts (h : Starts mark line) :
    lastStarting mark (above ++ [line]) = some line := by
  simp [lastStarting, h]

/-- Lines that do not start with the mark change nothing. -/
theorem lastStarting_append_of_not (h : ∀ line ∈ ls, ¬ Starts mark line) :
    lastStarting mark (above ++ ls) = lastStarting mark above := by
  have hnone : ls.filter (Starts mark ·) = [] :=
    List.filter_eq_nil_iff.mpr fun line hline => by simpa using h line hline
  rw [lastStarting, List.filter_append, hnone, List.append_nil, lastStarting]

theorem underHeadings_append : underHeadings above (ls ++ ls') =
    underHeadings above ls ++ underHeadings (above ++ ls) ls' := by
  induction ls generalizing above with
  | nil => rw [List.append_nil]; rfl
  | cons line ls ih => rw [List.cons_append, underHeadings, ih, List.append_assoc]; rfl

theorem map_line_underHeadings : (underHeadings above ls).map Listed.line = ls := by
  induction ls generalizing above with
  | nil => rfl
  | cons line ls ih => exact congrArg (line :: ·) ih

/-- Of lines that are not looked for none is found. -/
theorem filter_underHeadings_eq_nil {q : String → Prop} [DecidablePred q]
    (h : ∀ line ∈ ls, ¬ q line) : (underHeadings above ls).filter (q ·.line) = [] := by
  refine List.filter_eq_nil_iff.mpr fun l hl => ?_
  have hline := List.mem_map_of_mem (f := Listed.line) hl
  rw [map_line_underHeadings] at hline
  simpa using h l.line hline

/-- Lines that are no headings stand under the same headings. -/
theorem underHeadings_of_plain
    (h : ∀ line ∈ ls, ¬ Starts "## " line ∧ ¬ Starts "### Threat: " line) :
    underHeadings above ls =
      ls.map fun line => ⟨lastStarting "## " above, lastStarting "### Threat: " above, line⟩ := by
  induction ls generalizing above with
  | nil => rfl
  | cons line ls ih =>
      obtain ⟨⟨hc, ht⟩, hls⟩ := List.forall_mem_cons.mp h
      rw [underHeadings, ih hls, lastStarting_append_of_not (by simpa using hc),
        lastStarting_append_of_not (by simpa using ht), List.map_cons]

end

/-- What is read of blocks of lines, one after the other, if each block can be read by itself where
it stands. -/
theorem filter_underHeadings_flatMap {α β : Type} {p : Listed → Bool} {view : Listed → β}
    (holds : List String → Prop) {block : α → List String} {out : α → List β} {as : List α}
    (h : ∀ a ∈ as, ∀ above, holds above →
      ((underHeadings above (block a)).filter p).map view = out a ∧ holds (above ++ block a))
    {above : List String} (habove : holds above) :
    ((underHeadings above (as.flatMap block)).filter p).map view = as.flatMap out := by
  induction as generalizing above with
  | nil => rfl
  | cons a as ih =>
      obtain ⟨ha, has⟩ := List.forall_mem_cons.mp h
      obtain ⟨hread, hnext⟩ := ha above habove
      rw [List.flatMap_cons, underHeadings_append, List.filter_append, List.map_append, hread,
        ih has hnext, List.flatMap_cons]

/-! ### The lines of a report -/

/-- The heading of a component. -/
def componentHeading (c : Component) : String := "## " ++ c.place.zone ++ " " ++ c.place.component

/-- The heading of a threat. -/
def threatHeading (name : String) : String := "### Threat: " ++ name

/-- Where a function was found; a file without a name is missing. -/
def foundAt : Option CodeSite → String
  | none   => "?:?"
  | some s => (if s.file = "" then "?" else s.file) ++ ":" ++ Int.repr s.line

/-- What is said of a mitigation or an exposure. -/
def entryText (p : Provenance) : String :=
  p.fact.description ++ " (" ++ p.function ++ " in " ++ foundAt p.site ++ ")"

/-- The line of a mitigation or an exposure of a component, under its headings. -/
def listedAs (mark : String) (c : Component) (threat : String) (p : Provenance) : Listed :=
  ⟨some (componentHeading c), some (threatHeading threat), mark ++ entryText p⟩

/-- A line starts as a mitigation or as an exposure does. -/
def IsEntry (line : String) : Prop := Starts "* Mitigation: " line ∨ Starts "* Exposure: " line

instance (line : String) : Decidable (IsEntry line) := inferInstanceAs (Decidable (_ ∨ _))

section
variable {q : String → Prop} [DecidablePred q] {mark threat : String} {c : Component}
  (ps : List Provenance)

theorem filter_listedAs (h : ∀ text, q (mark ++ text)) :
    (ps.map (listedAs mark c threat)).filter (q ·.line) = ps.map (listedAs mark c threat) := by
  refine List.filter_eq_self.mpr fun l hl => ?_
  obtain ⟨p, -, rfl⟩ := List.mem_map.mp hl
  exact decide_eq_true (h _)

theorem filter_listedAs_eq_nil (h : ∀ text, ¬ q (mark ++ text)) :
    (ps.map (listedAs mark c threat)).filter (q ·.line) = [] := by
  refine List.filter_eq_nil_iff.mpr fun l hl => ?_
  obtain ⟨p, -, rfl⟩ := List.mem_map.mp hl
  exact fun hq => h _ (of_decide_eq_true hq)

end

theorem location_eq {site : Option CodeSite} (h : ∀ s ∈ site, 0 < s.line) :
    location site = foundAt site := by
  cases site with
  | none => rfl
  | some s =>
      have hline : s.line ≠ 0 := Int.ne_of_gt (h s rfl)
      by_cases hfile : s.file = "" <;>
        simp [location, foundAt, Text.givenOr, Text.given?, Option.filter, hfile, hline]

theorem entryLine_eq {kind mark : String} (hmark : "* " ++ kind ++ ": " = mark) {p : Provenance}
    (h : p.Printable) : entryLine kind p = mark ++ entryText p := by
  rw [entryLine, hmark, location_eq fun s hs => (h.site s hs).2]
  simp only [entryText, String.append_assoc]

/-- The lines above the components are neither headings nor entries. -/
theorem not_starts_of_mem_headLines {title : Option String} {c : Coverage} {line mark : String}
    (hline : line ∈ headLines title c)
    (hmark : mark ∈ ["## ", "### Threat: ", "* Mitigation: ", "* Exposure: "]) :
    ¬ Starts mark line := by
  have happart : ∀ start ∈ ["# ThreatSpec Report for ", "* Functions found: ",
      "* Functions covered: ", "* Functions tested: "],
        ∀ mark ∈ ["## ", "### Threat: ", "* Mitigation: ", "* Exposure: "], Apart mark start := by
    decide
  have hfixed : ∀ line ∈ ["", "# Analysis", "# Components"],
      ∀ mark ∈ ["## ", "### Threat: ", "* Mitigation: ", "* Exposure: "], ¬ Starts mark line := by
    decide
  simp only [headLines, heading, analysisLines, List.mem_cons, List.not_mem_nil, or_false,
    String.append_assoc] at hline
  rcases hline with rfl | rfl | rfl | rfl | rfl | rfl | rfl | rfl
  · exact (happart _ (by simp) _ hmark).not_starts _
  · exact hfixed _ (by simp) _ hmark
  · exact hfixed _ (by simp) _ hmark
  · exact (happart _ (by simp) _ hmark).not_starts _
  · exact (happart _ (by simp) _ hmark).not_starts _
  · exact (happart _ (by simp) _ hmark).not_starts _
  · exact hfixed _ (by simp) _ hmark
  · exact hfixed _ (by simp) _ hmark

theorem not_starts_componentHeading {c : Component} {mark : String}
    (hmark : mark ∈ ["### Threat: ", "* Mitigation: ", "* Exposure: "]) :
    ¬ Starts mark (componentHeading c) := by
  have happart : ∀ mark ∈ ["### Threat: ", "* Mitigation: ", "* Exposure: "],
      Apart mark "## " := by decide
  rw [componentHeading, String.append_assoc, String.append_assoc]
  exact (happart mark hmark).not_starts _

/-! ### Threats -/

/-- The lines below the heading of a threat. -/
def entryLines (t : ThreatRecord) : List String :=
  t.mitigations.map ("* Mitigation: " ++ entryText ·) ++
    t.exposures.map ("* Exposure: " ++ entryText ·) ++ [""]

section
variable {name : String} {t : ThreatRecord} {c : Component} {above : List String}

theorem threatLines_eq (ht : ∀ p ∈ t.mitigations ++ t.exposures, p.Printable) :
    threatLines name t = threatHeading name :: entryLines t := by
  have hm : t.mitigations.map (entryLine "Mitigation") =
      t.mitigations.map ("* Mitigation: " ++ entryText ·) :=
    List.map_congr_left fun p hp => entryLine_eq (by decide) (ht p (List.mem_append_left _ hp))
  have he : t.exposures.map (entryLine "Exposure") =
      t.exposures.map ("* Exposure: " ++ entryText ·) :=
    List.map_congr_left fun p hp => entryLine_eq (by decide) (ht p (List.mem_append_right _ hp))
  rw [threatLines, hm, he]
  rfl

/-- What stands below the heading of a threat is no heading. -/
theorem not_starts_of_mem_entryLines {line : String} (h : line ∈ entryLines t) :
    ¬ Starts "## " line ∧ ¬ Starts "### Threat: " line := by
  simp only [entryLines, List.mem_append, List.mem_map, List.mem_singleton] at h
  rcases h with (⟨p, -, rfl⟩ | ⟨p, -, rfl⟩) | rfl
  · exact ⟨Apart.not_starts (by decide) _, Apart.not_starts (by decide) _⟩
  · exact ⟨Apart.not_starts (by decide) _, Apart.not_starts (by decide) _⟩
  · exact ⟨by decide, by decide⟩

/-- **The lines of a threat are its heading and, below it, its entries.** -/
theorem underHeadings_threatLines (ht : ∀ p ∈ t.mitigations ++ t.exposures, p.Printable)
    (hc : lastStarting "## " above = some (componentHeading c)) :
    underHeadings above (threatLines name t) =
      ⟨some (componentHeading c), lastStarting "### Threat: " above, threatHeading name⟩ ::
        (t.mitigations.map (listedAs "* Mitigation: " c name) ++
          t.exposures.map (listedAs "* Exposure: " c name) ++
            [⟨some (componentHeading c), some (threatHeading name), ""⟩]) := by
  have hnot : ¬ Starts "## " (threatHeading name) := Apart.not_starts (by decide) name
  have hstarts : Starts "### Threat: " (threatHeading name) := starts_append _ name
  rw [threatLines_eq ht, underHeadings,
    underHeadings_of_plain fun _ => not_starts_of_mem_entryLines,
    lastStarting_append_of_not (by simpa using hnot),
    lastStarting_concat_of_starts hstarts, hc, entryLines, List.map_append,
    List.map_append, List.map_map, List.map_map]
  rfl

/-- No line of a threat is the heading of a component. -/
theorem not_starts_of_mem_threatLines (ht : ∀ p ∈ t.mitigations ++ t.exposures, p.Printable)
    {line : String} (hline : line ∈ threatLines name t) : ¬ Starts "## " line := by
  rw [threatLines_eq ht] at hline
  rcases List.mem_cons.mp hline with rfl | hline
  · exact Apart.not_starts (by decide) name
  · exact (not_starts_of_mem_entryLines hline).1

/-- The entries that are read of a threat. -/
theorem entries_threatLines (ht : ∀ p ∈ t.mitigations ++ t.exposures, p.Printable)
    (hc : lastStarting "## " above = some (componentHeading c)) :
    (underHeadings above (threatLines name t)).filter (IsEntry ·.line) =
      t.mitigations.map (listedAs "* Mitigation: " c name) ++
        t.exposures.map (listedAs "* Exposure: " c name) := by
  have hheading : ¬ IsEntry (threatHeading name) := fun h =>
    h.elim (Apart.not_starts (by decide) name) (Apart.not_starts (by decide) name)
  have hblank : ¬ IsEntry "" := by decide
  rw [underHeadings_threatLines ht hc, List.filter_cons_of_neg (by simpa using hheading),
    List.filter_append, List.filter_append, filter_listedAs _ fun _ => .inl (starts_append _ _),
    filter_listedAs _ fun _ => .inr (starts_append _ _),
    List.filter_cons_of_neg (by simpa using hblank), List.filter_nil, List.append_nil]

/-- The headings that are read of a threat. -/
theorem headings_threatLines (ht : ∀ p ∈ t.mitigations ++ t.exposures, p.Printable)
    (hc : lastStarting "## " above = some (componentHeading c)) :
    ((underHeadings above (threatLines name t)).filter (Starts "### Threat: " ·.line)).map
        (fun l => (l.component, l.line)) =
      [(some (componentHeading c), threatHeading name)] := by
  have hstarts : Starts "### Threat: " (threatHeading name) := starts_append _ name
  have hbelow : (underHeadings (above ++ [threatHeading name]) (entryLines t)).filter
      (Starts "### Threat: " ·.line) = [] :=
    filter_underHeadings_eq_nil fun _ h => (not_starts_of_mem_entryLines h).2
  rw [threatLines_eq ht, underHeadings, List.filter_cons_of_pos (by simpa using hstarts), hbelow,
    hc]
  rfl

end

/-! ### Components -/

theorem starts_componentHeading (c : Component) : Starts "## " (componentHeading c) := by
  rw [componentHeading, String.append_assoc, String.append_assoc]
  exact starts_append _ _

theorem componentLines_eq (c : Component) : componentLines c =
    componentHeading c :: c.threats.toList.flatMap fun e => threatLines e.1 e.2 := rfl

/-- A component has one heading. -/
theorem filter_componentLines {c : Component} (hprintable : c.Printable) :
    (componentLines c).filter (Starts "## " ·) = [componentHeading c] := by
  have hnone : (c.threats.toList.flatMap fun e => threatLines e.1 e.2).filter (Starts "## " ·) =
      [] := by
    refine List.filter_eq_nil_iff.mpr fun line hline => ?_
    obtain ⟨e, he, hline⟩ := List.mem_flatMap.mp hline
    simpa using not_starts_of_mem_threatLines (hprintable.entry e he) hline
  rw [componentLines_eq, List.filter_cons_of_pos (by simpa using starts_componentHeading c), hnone]

section
variable {β : Type} {q : String → Prop} [DecidablePred q] {view : Listed → β}

/-- **What is read of a component is what is read of its threats**, if it is headings of threats or
entries. -/
theorem filter_underHeadings_componentLines {c : Component} (hprintable : c.Printable)
    (hq : ∀ line, q line → Starts "### Threat: " line ∨ IsEntry line)
    {out : String × ThreatRecord → List β}
    (h : ∀ e ∈ c.threats.toList, ∀ above, lastStarting "## " above = some (componentHeading c) →
      ((underHeadings above (threatLines e.1 e.2)).filter (q ·.line)).map view = out e)
    (above : List String) :
    ((underHeadings above (componentLines c)).filter (q ·.line)).map view =
      c.threats.toList.flatMap out := by
  have hnot : ¬ q (componentHeading c) := by
    intro hqc
    rcases hq _ hqc with h | h | h
    all_goals exact not_starts_componentHeading (by simp) h
  rw [componentLines_eq, underHeadings, List.filter_cons_of_neg (by simpa using hnot)]
  refine filter_underHeadings_flatMap
    (fun above => lastStarting "## " above = some (componentHeading c)) (fun e he above hc => ?_)
    (lastStarting_concat_of_starts (starts_componentHeading c))
  exact ⟨h e he above hc, (lastStarting_append_of_not fun _ =>
    not_starts_of_mem_threatLines (hprintable.entry e he)).trans hc⟩

/-- **What is read of a report is what is read of the threats of its components.** -/
theorem filter_underHeadings_lines (title : Option String) (c : Coverage) {table : ComponentTable}
    (htable : ∀ c ∈ table.values, c.Printable)
    (hq : ∀ line, q line → Starts "### Threat: " line ∨ IsEntry line)
    {out : Component → String × ThreatRecord → List β}
    (h : ∀ c ∈ table.values, ∀ e ∈ c.threats.toList, ∀ above,
      lastStarting "## " above = some (componentHeading c) →
        ((underHeadings above (threatLines e.1 e.2)).filter (q ·.line)).map view = out c e) :
    ((underHeadings [] (lines title c table ++ [""])).filter (q ·.line)).map view =
      table.values.flatMap fun c => c.threats.toList.flatMap (out c) := by
  have hhead : ∀ line ∈ headLines title c, ¬ q line := by
    intro line hline hqline
    rcases hq line hqline with h | h | h
    all_goals exact not_starts_of_mem_headLines hline (by simp) h
  have hblank : ∀ line ∈ [""], ¬ q line := by
    intro line hline hqline
    obtain rfl := List.mem_singleton.mp hline
    exact absurd (hq "" hqline) (by decide)
  rw [underHeadings_append, lines, underHeadings_append, List.filter_append, List.filter_append,
    filter_underHeadings_eq_nil hhead, filter_underHeadings_eq_nil hblank, List.nil_append,
    List.append_nil]
  exact filter_underHeadings_flatMap (fun _ => True) (fun c hc above _ =>
    ⟨filter_underHeadings_componentLines (htable c hc) hq (h c hc) above, trivial⟩) trivial

end

/-! ### Reports -/

/-- The lines list the table: each component and each of its threats under one heading, and each
fact once, in the place and in the order of the table. -/
structure Lists (table : ComponentTable) (ls : List String) : Prop where
  /-- There is one heading for each component. -/
  components : ls.filter (Starts "## " ·) = table.values.map componentHeading
  /-- There is one heading for each threat of a component, below that of the component. -/
  threats : ((underHeadings [] ls).filter (Starts "### Threat: " ·.line)).map
      (fun l => (l.component, l.line)) =
    table.values.flatMap fun c => c.threats.keys.map fun name =>
      (some (componentHeading c), threatHeading name)
  mitigations : (underHeadings [] ls).filter (Starts "* Mitigation: " ·.line) =
    table.values.flatMap fun c => c.threats.toList.flatMap fun (name, t) =>
      t.mitigations.map (listedAs "* Mitigation: " c name)
  exposures : (underHeadings [] ls).filter (Starts "* Exposure: " ·.line) =
    table.values.flatMap fun c => c.threats.toList.flatMap fun (name, t) =>
      t.exposures.map (listedAs "* Exposure: " c name)
  /-- The mitigations of a threat come before its exposures. -/
  entries : (underHeadings [] ls).filter (IsEntry ·.line) =
    table.values.flatMap fun c => c.threats.toList.flatMap fun (name, t) =>
      t.mitigations.map (listedAs "* Mitigation: " c name) ++
        t.exposures.map (listedAs "* Exposure: " c name)

section
variable {table : ComponentTable}

/-- The entries of one kind are found among all entries. -/
theorem filter_kind {mark : String} (hmark : ∀ line, Starts mark line → IsEntry line)
    {ls : List Listed} {es out : Component → String × ThreatRecord → List Listed}
    (hentries : ls.filter (IsEntry ·.line) =
      table.values.flatMap fun c => c.threats.toList.flatMap (es c))
    (hkind : ∀ c e, (es c e).filter (Starts mark ·.line) = out c e) :
    ls.filter (Starts mark ·.line) =
      table.values.flatMap fun c => c.threats.toList.flatMap (out c) := by
  have hamong : ls.filter (Starts mark ·.line) =
      (ls.filter (IsEntry ·.line)).filter (Starts mark ·.line) := by
    rw [List.filter_filter]
    refine List.filter_congr fun l _ => ?_
    by_cases hl : Starts mark l.line
    · simp [hl, hmark _ hl]
    · simp [hl]
  rw [hamong, hentries, List.filter_flatMap]
  refine List.flatMap_congr fun c _ => ?_
  rw [List.filter_flatMap]
  exact List.flatMap_congr fun e _ => hkind c e

/-- There is one heading for each component. -/
theorem filter_lines (title : Option String) (c : Coverage)
    (htable : ∀ c ∈ table.values, c.Printable) :
    (lines title c table ++ [""]).filter (Starts "## " ·) =
      table.values.map componentHeading := by
  have hhead : (headLines title c).filter (Starts "## " ·) = [] :=
    List.filter_eq_nil_iff.mpr fun line hline => by
      simpa using not_starts_of_mem_headLines hline (by simp)
  have hblank : [""].filter (Starts "## " ·) = [] := by decide
  rw [lines, List.filter_append, List.filter_append, hhead, hblank, List.filter_flatMap,
    List.nil_append, List.append_nil, List.map_eq_flatMap]
  exact List.flatMap_congr fun c hc => filter_componentLines (htable c hc)

/-- **The lines of a report list its table**, if all that is printed is on one line. -/
theorem lists_lines (title : Option String) (c : Coverage)
    (htable : ∀ c ∈ table.values, c.Printable) : Lists table (lines title c table ++ [""]) := by
  have hentries := filter_underHeadings_lines title c htable (fun _ => .inr)
    fun c hc e he above habove =>
      (List.map_id _).trans (entries_threatLines ((htable c hc).entry e he) habove)
  rw [List.map_id] at hentries
  have hthreats := filter_underHeadings_lines title c htable (fun _ => .inl)
    fun c hc e he above habove => headings_threatLines ((htable c hc).entry e he) habove
  refine ⟨filter_lines title c htable, ?_, filter_kind (fun _ => .inl) hentries fun c e => ?_,
    filter_kind (fun _ => .inr) hentries fun c e => ?_, hentries⟩
  · rw [hthreats]
    refine List.flatMap_congr fun c _ => ?_
    rw [Ledger.keys, List.map_map, List.map_eq_flatMap]
    rfl
  · rw [List.filter_append, filter_listedAs _ (starts_append _),
      filter_listedAs_eq_nil _ (Apart.not_starts (by decide)), List.append_nil]
  · rw [List.filter_append, filter_listedAs_eq_nil _ (Apart.not_starts (by decide)),
      filter_listedAs _ (starts_append _), List.nil_append]

end

/-- **A report lists every fact of the component table once, and in its place.**  Take the facts of
any parses of files whose names are on one line, and any title on one line: cut at its newlines, the
report lists the components of the facts, their threats, and all mitigations and exposures. -/
theorem ofFacts_lists (ps : List Annotations.Parse) (hps : ∀ p ∈ ps, '\n' ∉ p.file.toList)
    (title : Option String) (htitle : ∀ t ∈ title, '\n' ∉ t.toList) :
    Lists (ComponentTable.analyze (Annotations.parseAll .empty ps))
      (splitLines (ofFacts (Annotations.parseAll .empty ps) title)) := by
  have htable : ∀ c ∈ (ComponentTable.analyze (Annotations.parseAll .empty ps)).values,
      c.Printable := fun _ => printable_analyze hps
  rw [ofFacts, splitLines_render (newline_not_mem_lines htitle _ htable)]
  exact lists_lines title _ htable

/-- A file with a mitigation and an exposure of one threat; the function is found. -/
theorem ofFacts_lists_found :
    let ps : List Annotations.Parse := [⟨true, "a.go",
      "// ThreatSpec M for A.F\n// Mitigates a:b against t with a lock\n" ++
        "// Exposes a:b to t with a door\nfunc F() \x7b\n"⟩]
    let ls := splitLines (ofFacts (Annotations.parseAll .empty ps) (some "Payments"))
    (∀ p ∈ ps, '\n' ∉ p.file.toList) ∧ '\n' ∉ "Payments".toList ∧
      Lists (ComponentTable.analyze (Annotations.parseAll .empty ps)) ls ∧
      (underHeadings [] ls).filter (IsEntry ·.line) =
        [⟨some "## a b", some "### Threat: t", "* Mitigation: a lock (A:F in a.go:4)"⟩,
          ⟨some "## a b", some "### Threat: t", "* Exposure: a door (A:F in a.go:4)"⟩] := by
  intro ps ls
  have hps : ∀ p ∈ ps, '\n' ∉ p.file.toList := by decide
  have hlists := ofFacts_lists ps hps (some "Payments") (by simp)
  exact ⟨hps, by decide, hlists, hlists.entries.trans (by decide +kernel)⟩

end ThreatModel.Report
