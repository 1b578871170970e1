import Mathlib.Data.List.Basic
import Mathlib.Data.Nat.Digits.Defs
import ThreatModel.CallGraph
import ThreatModel.Proofs.Pattern.Search
import ThreatModel.Proofs.Text.Codes

/-!
# Edges — a written edge is read back as it was written

An `Edge` has the five fields of a call-graph line and is written `Edge.text`.  The marker may hold
dashes, digits and colons, and the callee may hold tabs, so the line can look like an edge at more
than one place.  The first tab tells them apart: it ends the caller, and the next one ends the
numbers, behind which the marker cannot reach (`eq_nil_of_reads_numbers`).

* `match?_text`: every field of a written edge is read as it was written, whatever line ends
  follow (`withoutLineEnds_text`).
* `number_eq`: digits of any script are read as the number they write in base ten, unless there are
  too many.
-/

namespace ThreatModel.CallGraph

open Pattern

/-! ### Edges -/

/-- A caller or a marker: any text of one line without tabs. -/
def IsName (s : String) : Prop := s ≠ "" ∧ ∀ c ∈ s.toList, c ∉ ['\t', '\r', '\n']

/-- A callee: any text of one line. -/
def IsCallee (s : String) : Prop := s ≠ "" ∧ ∀ c ∈ s.toList, c ∉ ['\r', '\n']

/-- A line or column: decimal digits of any script. -/
def IsNumeral (s : String) : Prop := s ≠ "" ∧ ∀ c ∈ s.toList, Text.isDecimal c = true

/-- What may follow a line: carriage returns and newlines. -/
def IsEnding (s : String) : Prop := ∀ c ∈ s.toList, c = '\r' ∨ c = '\n'

instance : DecidablePred IsName := fun s =>
  @instDecidableAnd _ _ _ (List.decidableBAll _ s.toList)

instance : DecidablePred IsCallee := fun s =>
  @instDecidableAnd _ _ _ (List.decidableBAll _ s.toList)

instance : DecidablePred IsNumeral := fun s =>
  @instDecidableAnd _ _ _ (List.decidableBAll _ s.toList)

instance : DecidablePred IsEnding := fun s => List.decidableBAll _ s.toList

/-- A call as a line of a call graph shows it. -/
structure Edge where
  caller : String
  marker : String
  line : String
  column : String
  callee : String
  caller_isName : IsName caller := by decide
  marker_isName : IsName marker := by decide
  line_isNumeral : IsNumeral line := by decide
  column_isNumeral : IsNumeral column := by decide
  callee_isCallee : IsCallee callee := by decide

/-- `caller TAB --marker-line:column--> TAB callee` -/
def Edge.text (e : Edge) : String :=
  e.caller ++ "\t--" ++ e.marker ++ "-" ++ e.line ++ ":" ++ e.column ++ "-->\t" ++ e.callee

/-! ### The numbers of an edge -/

/-- The line and the column, between the marker and the callee. -/
def numbers : Pattern Part :=
  .chain ["-", .capture .line (.several true Text.isDecimal), ":",
    .capture .column (.several true Text.isDecimal), "-->\t", .field .callee, .finish]

theorem edge_eq : edge = .chain [.field .caller, "\t--", .field .marker, numbers] := rfl

theorem not_mem_of_isDecimal {c : Char} {s : List Char} (hc : Text.isDecimal c = false)
    (hs : ∀ d ∈ s, Text.isDecimal d = true) : c ∉ s := by
  intro hm
  rw [hs c hm] at hc
  cases hc

/-- **Numbers cannot be read before the marker ends.**  What is read as numbers in front of the
first tab holds the last colon there, and the last dash in front of that. -/
theorem eq_nil_of_reads_numbers {b l c s r : List Char} (hb : '\t' ∉ b)
    (hl : ∀ d ∈ l, Text.isDecimal d = true) (hc : ∀ d ∈ c, Text.isDecimal d = true)
    (h : numbers.Reads (b ++ '-' :: (l ++ ':' :: (c ++ ['-', '-', '>'] ++ '\t' :: s))) r) :
    b = [] := by
  obtain ⟨_, hdash, _, hline, _, hcolon, _, hcolumn, m, harrow, -⟩ := h
  obtain ⟨l', -, hl', rfl⟩ := reads_several.mp hline
  obtain ⟨c', -, hc', rfl⟩ := reads_several.mp hcolumn
  obtain rfl := show _ = '-' :: '-' :: '>' :: '\t' :: m from harrow
  obtain rfl := show _ = ':' :: (c' ++ _) from hcolon
  have htext : (b ++ '-' :: l ++ ':' :: c) ++ ['-', '-', '>'] ++ '\t' :: s =
      ('-' :: l' ++ ':' :: c') ++ ['-', '-', '>'] ++ '\t' :: m := by
    simpa using show _ = '-' :: (l' ++ ':' :: (c' ++ '-' :: '-' :: '>' :: '\t' :: m)) from hdash
  have htab : ∀ l c : List Char, (∀ d ∈ l, Text.isDecimal d = true) →
      (∀ d ∈ c, Text.isDecimal d = true) → '\t' ∉ '-' :: l ++ ':' :: c ++ ['-', '-', '>'] := by
    intro l c hl hc
    have htl := not_mem_of_isDecimal (c := '\t') (by decide) hl
    have htc := not_mem_of_isDecimal (c := '\t') (by decide) hc
    simp [htl, htc]
  obtain ⟨hsame, -⟩ := append_cons_inj (by simpa [hb] using htab l c hl hc) (htab l' c' hl' hc')
    htext
  -- in front of the tab the numbers are cut at the last colon and at the last dash
  obtain ⟨hdashed, -, -⟩ := (List.append_cons_inj_of_notMem
    (by simp [not_mem_of_isDecimal (c := ':') (by decide) hl'])
    (not_mem_of_isDecimal (c := ':') (by decide) hc')).mp (List.append_cancel_right hsame).symm
  cases b with
  | nil => rfl
  | cons d b =>
      have hmem : '-' ∈ l' := (List.cons.inj hdashed).2 ▸ by simp
      exact absurd hmem (not_mem_of_isDecimal (by decide) hl')

/-! ### The search -/

variable {α : Type} {k : List Char → Kept Part → Option α} {x : α} {kept : Kept Part}

theorem run_callee {callee : List Char} (hne : callee ≠ []) (hn : '\n' ∉ callee)
    (h : k [] ((.callee, ⟨callee, []⟩) :: kept) = some x) :
    (chain [.field .callee, .finish]).run k callee kept = some x := by
  have hend : ((.finish : Pattern Part).run k) [] ((.callee, ⟨callee ++ [], []⟩) :: kept) =
      some x := by simpa [run] using h
  rw [← List.append_nil callee]
  refine run_field hne hn ?_ hend
  rintro a b rfl - hb kept'
  have hnewline : b ≠ ['\n'] := fun e => hn (by simp [e])
  simp [chain, run, hb, hnewline]

namespace Edge

/-- The edge from the dash behind its marker on. -/
def rest (e : Edge) : List Char :=
  "-".toList ++ (e.line.toList ++ (":".toList ++ (e.column.toList ++
    ("-->\t".toList ++ e.callee.toList))))

theorem toList_text (e : Edge) : e.text.toList =
    e.caller.toList ++ ("\t--".toList ++ (e.marker.toList ++ e.rest)) := by
  simp [text, rest]

/-- What the search keeps of the numbers and the callee. -/
def restKept (e : Edge) : Kept Part :=
  [(.callee, ⟨e.callee.toList, []⟩),
    (.column, ⟨e.column.toList ++ ("-->\t".toList ++ e.callee.toList),
      "-->\t".toList ++ e.callee.toList⟩),
    (.line, ⟨e.line.toList ++ (":".toList ++ (e.column.toList ++
        ("-->\t".toList ++ e.callee.toList))),
      ":".toList ++ (e.column.toList ++ ("-->\t".toList ++ e.callee.toList))⟩)]

theorem run_rest (e : Edge) (h : k [] (e.restKept ++ kept) = some x) :
    numbers.run k e.rest kept = some x := by
  obtain ⟨hline, hlineDecimal⟩ := e.line_isNumeral
  obtain ⟨hcolumn, hcolumnDecimal⟩ := e.column_isNumeral
  obtain ⟨hcallee, hcalleeLine⟩ := e.callee_isCallee
  have hcolon : Text.isDecimal ':' = false := by decide
  have hdash : Text.isDecimal '-' = false := by decide
  have hnewline : '\n' ∉ e.callee.toList := fun hn => hcalleeLine _ hn (by simp)
  refine (run_lit "-" _ _ _).trans
    (run_capture_several (by simpa using hline) hlineDecimal (by simpa using hcolon) ?_)
  refine (run_lit ":" _ _ _).trans
    (run_capture_several (by simpa using hcolumn) hcolumnDecimal (by simpa using hdash) ?_)
  exact (run_lit "-->\t" _ _ _).trans (run_callee (by simpa using hcallee) hnewline h)

theorem run_marker (e : Edge)
    (h : k [] (e.restKept ++ (.marker, ⟨e.marker.toList ++ e.rest, e.rest⟩) :: kept) = some x) :
    (chain [.field .marker, numbers]).run k (e.marker.toList ++ e.rest) kept = some x := by
  obtain ⟨hmarker, hname⟩ := e.marker_isName
  refine run_field (by simpa using hmarker) (fun hn => hname _ hn (by simp)) ?_ (e.run_rest h)
  rintro a b hab - hb kept'
  have htab : '\t' ∉ b := fun ht => hname '\t' (by simp [hab, ht]) (by simp)
  -- a shorter marker would have to be followed by numbers
  refine run_eq_none fun r hr => absurd ?_ hb
  have hr : numbers.Reads (b ++ e.rest) r := hr
  rw [rest] at hr
  exact eq_nil_of_reads_numbers htab e.line_isNumeral.2 e.column_isNumeral.2
    (by simpa using hr)

/-- What an edge has in a field. -/
def field (e : Edge) : Part → String
  | .caller => e.caller
  | .marker => e.marker
  | .line   => e.line
  | .column => e.column
  | .callee => e.callee

/-- **A written edge is read as it was written.** -/
theorem match?_text (e : Edge) : ∃ m, edge.match? e.text = some m ∧ ∀ p, m.get p = e.field p := by
  obtain ⟨hcaller, hname⟩ := e.caller_isName
  refine ⟨e.restKept ++ [(.marker, ⟨e.marker.toList ++ e.rest, e.rest⟩),
    (.caller, ⟨e.text.toList, "\t--".toList ++ (e.marker.toList ++ e.rest)⟩)], ?_, fun p => ?_⟩
  · rw [match?, edge_eq, toList_text]
    refine run_field (by simpa using hcaller) (fun hn => hname _ hn (by simp)) ?_
      ((run_lit "\t--" _ _ _).trans (e.run_marker rfl))
    rintro a b hab - hb kept'
    -- a shorter caller would have to be followed by a tab
    obtain ⟨c, b, rfl⟩ := List.exists_cons_of_ne_nil hb
    have htab : c ≠ '\t' := fun ht => hname c (by simp [hab]) (by simp [ht])
    simp [chain, run, afterText?, htab.symm]
  · rw [toList_text]
    cases p <;> simp [restKept, field, Match.get, Match.get?, Span.chars]

/-! ### Line ends -/

/-- The line ends behind an edge are no part of it. -/
theorem withoutLineEnds_text (e : Edge) {ending : String} (h : IsEnding ending) :
    withoutLineEnds (e.text ++ ending) = e.text := by
  obtain ⟨hcallee, hline⟩ := e.callee_isCallee
  have hlast : ∀ c ∈ e.text.toList.reverse.head?, ¬(c = '\r' ∨ c = '\n') := by
    intro c hc
    rw [List.head?_reverse, text, String.toList_append,
      List.getLast?_append_of_ne_nil _ (by simpa using hcallee)] at hc
    simpa using hline c (List.mem_of_mem_getLast? hc)
  have hdrop : (e.text.toList.reverse.dropWhile fun c => c = '\r' || c = '\n') =
      e.text.toList.reverse := by
    cases hs : e.text.toList.reverse with
    | nil => rfl
    | cons c s =>
        rw [hs] at hlast
        exact List.dropWhile_cons_of_neg (by simpa using hlast c rfl)
  rw [withoutLineEnds, String.toList_append, List.reverse_append,
    List.dropWhile_append_of_pos (by simpa [IsEnding] using h), hdrop, List.reverse_reverse,
    String.ofList_toList]

end Edge

/-! ### Numbers -/

/-- The number that digits write in base ten. -/
def valueOf (digits : String) : Nat :=
  Nat.ofDigits 10 (digits.toList.reverse.map fun c => (Text.digitValue? c).getD 0)

theorem foldlM_digitValue? {s : List Char} (hs : ∀ c ∈ s, Text.isDecimal c = true) (n : Nat) :
    s.foldlM (fun n c => (Text.digitValue? c).map (10 * n + ·)) n =
      some (s.foldl (fun n c => 10 * n + (Text.digitValue? c).getD 0) n) := by
  induction s generalizing n with
  | nil => rfl
  | cons c s ih =>
      obtain ⟨v, hv⟩ := Option.isSome_iff_exists.mp (hs c (by simp))
      rw [List.foldlM_cons, List.foldl_cons, hv]
      exact ih (fun d hd => hs d (by simp [hd])) _

/-- **A numeral is read as the number it writes, unless it is too long.** -/
theorem number_eq {digits : String} (h : IsNumeral digits) : CallSite.number digits =
    if 4300 < digits.length then .error ⟨digits.length⟩ else .ok (valueOf digits) := by
  obtain ⟨hne, hdecimal⟩ := h
  have hvalue : (Text.decimal? digits.toList).getD 0 = valueOf digits := by
    rw [valueOf, Nat.ofDigits_eq_foldr, List.foldr_map, List.foldr_reverse]
    cases hs : digits.toList with
    | nil => exact absurd (by simpa using hs) hne
    | cons c s =>
        rw [Text.decimal?, foldlM_digitValue? (hs ▸ hdecimal)]
        simp [Nat.add_comm]
  rw [CallSite.number, hvalue]
  rfl

end ThreatModel.CallGraph
