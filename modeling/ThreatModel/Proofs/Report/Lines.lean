import ThreatModel.Proofs.Annotations.Texts
import ThreatModel.Proofs.ComponentGraph.Names
import ThreatModel.Report.Basic

/-!
# The lines of a report

A report prints names, descriptions, keys, files and numbers.  In the component table of any parses
all of these are on one line, if the names of the files are (`printable_analyze`), and so no line of
the report has a newline in it (`newline_not_mem_lines`).

* `splitLines_render`: cut at its newlines, a report is its lines.
-/

namespace ThreatModel

/-! ### Numbers -/

theorem newline_not_mem_natRepr (n : Nat) : '\n' ∉ (Nat.repr n).toList := by
  rw [Nat.toList_repr]
  intro h
  exact absurd (Nat.isDigit_of_mem_toDigits (by decide) (by decide) h) (by decide)

theorem newline_not_mem_intRepr (n : Int) : '\n' ∉ (Int.repr n).toList := by
  cases n with
  | ofNat n => exact newline_not_mem_natRepr n
  | negSucc n => simpa [Int.repr] using newline_not_mem_natRepr (n + 1)

theorem Binary64.newline_not_mem_fixed2 (x : Binary64) : '\n' ∉ x.fixed2.toList := by
  cases x with
  | nan => decide
  | infinity negative => cases negative <;> decide
  | finite negative m e =>
      have hwhole := newline_not_mem_natRepr (hundredths m e / 100)
      have hcents := newline_not_mem_natRepr (hundredths m e % 100)
      have hsign : '\n' ∉ (if negative then "-" else "").toList := by cases negative <;> decide
      have hpad : '\n' ∉ (if hundredths m e % 100 < 10 then "0" else "").toList := by
        split <;> decide
      simp only [fixed2, String.toList_append, List.mem_append, not_or]
      exact ⟨⟨⟨⟨hsign, hwhole⟩, by decide⟩, hpad⟩, hcents⟩

namespace Report

theorem newline_not_mem_percent (p : Except PercentageError Binary64) :
    '\n' ∉ (percent p).toList := by
  cases p with
  | ok x => exact x.newline_not_mem_fixed2
  | error e => cases e; decide

end Report

/-! ### Component tables -/

/-- What is printed of a mitigation or an exposure is on one line, and its site is a line of a
file. -/
structure Provenance.Printable (p : Provenance) : Prop where
  description : '\n' ∉ p.fact.description.toList
  function : '\n' ∉ p.function.toList
  site : ∀ s ∈ p.site, '\n' ∉ s.file.toList ∧ 0 < s.line

/-- What is printed of a component is on one line. -/
structure Component.Printable (c : Component) : Prop where
  place : c.place.OneLine
  threat : ∀ e ∈ c.threats.toList, '\n' ∉ e.1.toList
  entry : ∀ e ∈ c.threats.toList, ∀ p ∈ e.2.mitigations ++ e.2.exposures, p.Printable

/-- What a component lists under a threat is a fact of a function about the threat. -/
theorem Component.Gathers.exists_of_mem {f : Facts} {key threat : String} {c : Component}
    (h : c.Gathers f key) {t : ThreatRecord} (ht : c.threats.get? threat = some t) {p : Provenance}
    (hp : p ∈ t.mitigations ++ t.exposures) :
    ∃ r, (p.function, r) ∈ f.functions ∧ p.fact ∈ r.threatFacts ∧ p.fact.threat = threat ∧
      p.site = r.site := by
  have hm := h.mitigations threat
  have he := h.exposures threat
  rw [ht, Option.getD_some] at hm he
  rw [hm, he, List.mem_append] at hp
  rcases hp with hp | hp
  · obtain ⟨⟨function, r⟩, hr, hp⟩ := List.mem_flatMap.mp hp
    obtain ⟨m, hm, rfl⟩ := List.mem_map.mp hp
    obtain ⟨hm, hthreat⟩ := List.mem_filter.mp hm
    exact ⟨r, hr, List.mem_append_left _ hm, (of_decide_eq_true hthreat).2, rfl⟩
  · obtain ⟨⟨function, r⟩, hr, hp⟩ := List.mem_flatMap.mp hp
    obtain ⟨e, he, rfl⟩ := List.mem_map.mp hp
    obtain ⟨he, hthreat⟩ := List.mem_filter.mp he
    exact ⟨r, hr, List.mem_append_right _ he, (of_decide_eq_true hthreat).2, rfl⟩

/-- **All that is printed of any parses is on one line**, if the names of the files are. -/
theorem printable_analyze {ps : List Annotations.Parse} (hps : ∀ p ∈ ps, '\n' ∉ p.file.toList)
    {c : Component}
    (hc : c ∈ (ComponentTable.analyze (Annotations.parseAll .empty ps)).values) : c.Printable := by
  obtain ⟨⟨key, c⟩, hmem, rfl⟩ := List.mem_map.mp hc
  have hgathers := Component.gathers_of_get? (Ledger.mem_toList_iff.mp hmem)
  have hworded : ∀ {function : String} {r : FunctionRecord},
      (function, r) ∈ (Annotations.parseAll .empty ps).functions →
        ∀ m ∈ r.threatFacts, m.OneLine := fun hr =>
    Annotations.isKept_worded.of_mem_functions
      (Annotations.isKept_worded.parseAll (fun _ h => absurd h List.not_mem_nil) ps) hr
  have hsited := Annotations.isKeptIn_sited fun file => '\n' ∉ file.toList
  refine ⟨?_, fun ⟨threat, t⟩ ht => ?_, fun ⟨threat, t⟩ ht p hp => ?_⟩
  · have hplace := List.mem_of_find?_eq_some hgathers.first
    obtain ⟨⟨function, r⟩, hr, hplace⟩ := List.mem_flatMap.mp hplace
    exact Annotations.oneLine_parseAll ps hr _ (List.mem_append_left _ hplace)
  · -- a threat is listed for some fact about it
    have ht := Ledger.mem_toList_iff.mp ht
    obtain ⟨p, hp⟩ : ∃ p, p ∈ t.mitigations ++ t.exposures := by
      refine List.exists_mem_of_ne_nil _ fun hnil => ?_
      obtain ⟨hm, he⟩ := List.append_eq_nil_iff.mp hnil
      exact (hgathers.nonempty threat t ht).elim (· hm) (· he)
    obtain ⟨r, hr, hfact, rfl, -⟩ := hgathers.exists_of_mem ht hp
    exact (hworded hr _ hfact).threat
  · obtain ⟨r, hr, hfact, -, hsite⟩ := hgathers.exists_of_mem (Ledger.mem_toList_iff.mp ht) hp
    refine ⟨(hworded hr _ hfact).description,
      Annotations.newline_not_mem_of_mem_functions ps hr, fun s hs => ?_⟩
    exact hsited.of_mem_functions (hsited.parseAll (fun _ h => absurd h List.not_mem_nil) hps) hr s
      (hsite ▸ hs)

namespace Report

/-! ### Lines -/

theorem newline_not_mem_givenOr {s : Option String} {standIn : String}
    (hs : ∀ t ∈ s, '\n' ∉ t.toList) (h : '\n' ∉ standIn.toList) :
    '\n' ∉ (Text.givenOr s standIn).toList := by
  rw [Text.givenOr]
  cases hgiven : Text.given? s with
  | none => exact h
  | some t => exact hs t (Text.given?_eq_some_iff.mp hgiven).1

theorem newline_not_mem_location {site : Option CodeSite}
    (h : ∀ s ∈ site, '\n' ∉ s.file.toList) : '\n' ∉ (location site).toList := by
  have hfile : '\n' ∉ (Text.givenOr (site.map CodeSite.file) "?").toList := by
    refine newline_not_mem_givenOr (fun t ht => ?_) (by decide)
    obtain ⟨s, hs, rfl⟩ := Option.map_eq_some_iff.mp ht
    exact h s hs
  cases site with
  | none => decide
  | some s =>
      simp only [location, Option.map_some] at hfile ⊢
      by_cases hline : s.line = 0
      · simp [hline, hfile]
      · simp [hline, hfile, newline_not_mem_intRepr]

theorem newline_not_mem_entryLine {kind : String} (hkind : '\n' ∉ kind.toList) {p : Provenance}
    (h : p.Printable) : '\n' ∉ (entryLine kind p).toList := by
  have hlocation : '\n' ∉ (location p.site).toList :=
    newline_not_mem_location fun s hs => (h.site s hs).1
  simp [entryLine, hkind, h.description, h.function, hlocation]

/-- **No line of a report has a newline in it.** -/
theorem newline_not_mem_lines {title : Option String} (htitle : ∀ t ∈ title, '\n' ∉ t.toList)
    (c : Coverage) {table : ComponentTable} (htable : ∀ c ∈ table.values, c.Printable) :
    ∀ line ∈ lines title c table, '\n' ∉ line.toList := by
  intro line hline
  rcases List.mem_append.mp hline with hhead | hcomponents
  · have hgiven : '\n' ∉ (Text.givenOr title "...").toList :=
      newline_not_mem_givenOr htitle (by decide)
    simp only [headLines, heading, analysisLines, List.mem_cons, List.not_mem_nil, or_false] at hhead
    rcases hhead with rfl | rfl | rfl | rfl | rfl | rfl | rfl | rfl <;>
      simp [hgiven, newline_not_mem_intRepr, newline_not_mem_percent]
  · obtain ⟨c, hc, hline⟩ := List.mem_flatMap.mp hcomponents
    have hprintable := htable c hc
    rcases List.mem_cons.mp hline with rfl | hline
    · simp [hprintable.place.zone, hprintable.place.component]
    · obtain ⟨⟨threat, t⟩, ht, hline⟩ := List.mem_flatMap.mp hline
      have hentries := hprintable.entry _ ht
      simp only [threatLines, List.mem_append, List.mem_singleton, List.mem_map] at hline
      rcases hline with ((rfl | ⟨p, hp, rfl⟩) | ⟨p, hp, rfl⟩) | rfl
      · simp [hprintable.threat _ ht]
      · exact newline_not_mem_entryLine (by decide) (hentries p (List.mem_append_left _ hp))
      · exact newline_not_mem_entryLine (by decide) (hentries p (List.mem_append_right _ hp))
      · decide

/-- The lines of a text, cut at its newlines. -/
def splitLines (text : String) : List String := (text.toList.splitOn '\n').map String.ofList

/-- Lines that are closed by newlines are read back, with nothing behind the last newline. -/
theorem splitLines_join {ls : List String} (h : ∀ line ∈ ls, '\n' ∉ line.toList) :
    splitLines (String.join (ls.map (· ++ "\n"))) = ls ++ [""] := by
  rw [splitLines, String.toList_join, List.flatMap_map]
  induction ls with
  | nil => rfl
  | cons line ls ih =>
      obtain ⟨hline, hls⟩ := List.forall_mem_cons.mp h
      have hone : line.toList.splitOn '\n' = [line.toList] :=
        List.splitOnP_eq_singleton fun c hc => beq_false_of_ne fun e => hline (e ▸ hc)
      have hcut : ∀ rest, ((line ++ "\n").toList ++ rest).splitOn '\n' =
          line.toList.splitOn '\n' ++ rest.splitOn '\n' := fun rest => by
        rw [String.toList_append, List.append_assoc]
        exact List.splitOnP_append_cons _ _ (beq_self_eq_true '\n')
      rw [List.flatMap_cons, hcut, hone, List.map_append, ih hls, List.map_singleton,
        String.ofList_toList, List.singleton_append, List.cons_append]

/-- **Cut at its newlines, a report is its lines**; behind the last newline there is nothing. -/
theorem splitLines_render {title : Option String} {c : Coverage} {table : ComponentTable}
    (h : ∀ line ∈ lines title c table, '\n' ∉ line.toList) :
    splitLines (render title c table) = lines title c table ++ [""] :=
  splitLines_join h

end Report

end ThreatModel
