import ThreatModel.Proofs.Annotations.LineEnds
import ThreatModel.Proofs.Annotations.PlainDefinitions
import ThreatModel.Proofs.Annotations.Records

/-!
# Bindings — how long a record stays bound to a definition

A definition that names the function of the current record gives it its site, wherever the line
stands, and the record keeps the site up to the next line that does (`site_foldl_of_site`).  A plain
definition names the function of a record if it is written with the record's short name.

The language of a file is told from the end of its name, in any case: it is Go unless the name ends
in `.py` or `.rb` (`ofFileName_eq_iff`).

* `plain_definitions_bind`: plain definitions are counted, and bind the record that is current.
-/

namespace ThreatModel

/-! ### The language of a file -/

namespace Language

/-- The lower case of the file's name ends so. -/
def EndsIn (file ending : String) : Prop := ending.toList <:+ Text.lower file.toList

instance (file ending : String) : Decidable (EndsIn file ending) :=
  inferInstanceAs (Decidable (_ <:+ _))

theorem ofFileName_eq (file : String) : ofFileName file =
    if EndsIn file ".go" then go
    else if EndsIn file ".py" then python
    else if EndsIn file ".rb" then ruby
    else go := by
  simp only [ofFileName, endings, EndsIn, List.find?_cons, List.find?_nil,
    ← List.isSuffixOf_iff_suffix]
  cases ".go".toList.isSuffixOf (Text.lower file.toList) <;>
    cases ".py".toList.isSuffixOf (Text.lower file.toList) <;>
      cases ".rb".toList.isSuffixOf (Text.lower file.toList) <;> rfl

/-- No name ends in two ways. -/
theorem EndsIn.eq {file e e' : String} (h : EndsIn file e) (h' : EndsIn file e')
    (hlen : e.toList.length = e'.toList.length) : e.toList = e'.toList :=
  List.IsSuffix.eq_of_length (List.suffix_of_suffix_length_le h h' (Nat.le_of_eq hlen)) hlen

/-- **A file is one of Go unless its name ends otherwise.** -/
theorem ofFileName_eq_iff (file : String) :
    (ofFileName file = python ↔ EndsIn file ".py") ∧
      (ofFileName file = ruby ↔ EndsIn file ".rb") ∧
      (ofFileName file = go ↔ ¬ EndsIn file ".py" ∧ ¬ EndsIn file ".rb") := by
  have hgopy : EndsIn file ".go" → ¬ EndsIn file ".py" := fun h h' =>
    absurd (h.eq h' (by decide)) (by decide)
  have hgorb : EndsIn file ".go" → ¬ EndsIn file ".rb" := fun h h' =>
    absurd (h.eq h' (by decide)) (by decide)
  have hpyrb : EndsIn file ".py" → ¬ EndsIn file ".rb" := fun h h' =>
    absurd (h.eq h' (by decide)) (by decide)
  rw [ofFileName_eq]
  split_ifs <;> simp_all

end Language

namespace Annotations

/-! ### Sites that stay -/

/-- The line is a definition whose function ends in this name. -/
def DefinesName (l : Language) (name line : String) : Prop :=
  ∃ m, l.definition.match? line = some m ∧
    (Text.words (m.get .function).toList).getLast?.map String.ofList = some name

theorem definesName_of_siteIn? {file name line : String} {number : Nat} {site : CodeSite}
    (h : siteIn? file name line number = some site) :
    DefinesName (Language.ofFileName file) name line := by
  obtain ⟨m, hm, hsite⟩ := Option.bind_eq_some_iff.mp h
  split at hsite
  · rename_i hname
    exact ⟨m, hm, hname⟩
  · cases hsite

namespace Reader

variable {rebind : Bool} {file line : String} {s : State} {id : RecordId} {site : CodeSite}

theorem shortName_step (hid : id < s.facts.records.length) :
    (((usual rebind).step file s line).facts.record id).shortName =
      (s.facts.record id).shortName := by
  rw [← FunctionRecord.shortName_opened, opened_step hid, FunctionRecord.shortName_opened]

/-- **A record keeps its site** until a line that is read for it names its function. -/
theorem site_foldl_of_site (rebind : Bool) (file : String) (lines : List String) (hs : s.Stored)
    (hid : id < s.facts.records.length) (h : (s.facts.record id).site = some site) :
    ((lines.foldl ((usual rebind).step file) s).facts.record id).site = some site ∨
      ∃ a line b, lines = a ++ line :: b ∧
        (a.foldl ((usual rebind).step file) s).current = some id ∧
        DefinesName (Language.ofFileName file) (s.facts.record id).shortName line := by
  induction lines generalizing s with
  | nil => exact .inl h
  | cons line lines ih =>
      by_cases hnames : s.current = some id ∧
          DefinesName (Language.ofFileName file) (s.facts.record id).shortName line
      · exact .inr ⟨[], line, lines, rfl, hnames⟩
      · have hkept : (((usual rebind).step file s line).facts.record id).site = some site := by
          have hnone : (if s.current = some id then
              siteIn? file (s.facts.record id).shortName line (s.line + 1) else none) = none := by
            split
            · rename_i hcur
              by_contra hsome
              obtain ⟨site', hsite'⟩ := Option.ne_none_iff_exists'.mp hsome
              exact hnames ⟨hcur, definesName_of_siteIn? hsite'⟩
            · rfl
          rw [site_step hs, hnone, Option.none_or, h]
        have hlen := Nat.lt_of_lt_of_le hid (length_le_step rebind file line)
        rcases ih (stored_step hs) hlen hkept with hend | ⟨a, line', b, rfl, hcur, hdefines⟩
        · exact .inl hend
        · exact .inr ⟨line :: a, line', b, rfl, hcur, shortName_step hid ▸ hdefines⟩

/-- A plain definition is counted wherever it stands. -/
theorem found_step_of_plain {name function code : List Char}
    (h : Language.Plain name (Language.ofFileName file) line.toList function code)
    (hne : name ≠ []) (hn : '\n' ∉ line.toList) :
    ((usual rebind).step file s line).facts.found =
      Tally.bump s.facts.found (String.ofList function) := by
  obtain ⟨m, hm, hshows⟩ := h.match? hne hn
  rw [found_step, definedIn?, hm, Option.map_some, hshows.function]
  rfl

/-- **It binds the current record** if that has the name. -/
theorem site_step_of_plain {function code : List Char}
    (h : Language.Plain (s.facts.record id).shortName.toList (Language.ofFileName file) line.toList
      function code)
    (hne : (s.facts.record id).shortName ≠ "") (hn : '\n' ∉ line.toList) (hs : s.Stored)
    (hcur : s.current = some id) :
    (((usual rebind).step file s line).facts.record id).site =
      some ⟨file, (s.line + 1 : Nat), String.ofList code⟩ := by
  have hne : (s.facts.record id).shortName.toList ≠ [] := fun hnil =>
    hne (String.toList_eq_nil_iff.mp hnil)
  obtain ⟨m, hm, hshows⟩ := h.match? hne hn
  have hsite : siteIn? file (s.facts.record id).shortName line (s.line + 1) =
      some ⟨file, (s.line + 1 : Nat), String.ofList code⟩ := by
    rw [siteIn?, hm, Option.bind_some, hshows.function, hshows.code, String.toList_ofList,
      h.getLast?_words hne, Option.map_some, String.ofList_toList, if_pos rfl]
  rw [site_step hs, if_pos hcur, hsite, Option.some_or]

/-- It stays bound to it until a line that is read for it names its function again. -/
theorem site_foldl_of_plain (rebind : Bool) {function code : List Char}
    (h : Language.Plain (s.facts.record id).shortName.toList (Language.ofFileName file) line.toList
      function code)
    (hne : (s.facts.record id).shortName ≠ "") (hn : '\n' ∉ line.toList) (hs : s.Stored)
    (hid : id < s.facts.records.length) (hcur : s.current = some id) (lines : List String) :
    (((line :: lines).foldl ((usual rebind).step file) s).facts.record id).site =
        some ⟨file, (s.line + 1 : Nat), String.ofList code⟩ ∨
      ∃ a line' b, lines = a ++ line' :: b ∧
        ((line :: a).foldl ((usual rebind).step file) s).current = some id ∧
        DefinesName (Language.ofFileName file) (s.facts.record id).shortName line' := by
  have hlen := Nat.lt_of_lt_of_le hid (length_le_step rebind file line)
  have hkept := site_foldl_of_site rebind file lines (stored_step hs) hlen
    (site_step_of_plain h hne hn hs hcur)
  rwa [shortName_step hid] at hkept

/-- The state in which the lines of a file leave the reader. -/
def stateBehind (rebind : Bool) (file : String) (facts : Facts) (lines : List String) : State :=
  lines.foldl ((usual rebind).step file) (.start file facts)

theorem stateBehind_append (facts : Facts) (lines lines' : List String) :
    stateBehind rebind file facts (lines ++ lines') =
      lines'.foldl ((usual rebind).step file) (stateBehind rebind file facts lines) :=
  List.foldl_append

/-- A header's record is current below it, and keeps its function. -/
theorem exists_record_of_isHeader (rebind : Bool) (file : String) (facts : Facts)
    (above : List String) {header : String} {m : Pattern.Match Part}
    (hheader : isHeader header = true) (hm : Form.header.pattern.match? header = some m) :
    ∃ id, (stateBehind rebind file facts (above ++ [header])).current = some id ∧
      ∀ between,
        id < (stateBehind rebind file facts (above ++ header :: between)).facts.records.length ∧
        ((stateBehind rebind file facts (above ++ header :: between)).facts.record id).function =
          m.get .function := by
  obtain ⟨m', hm', hrecord⟩ :=
    record_step_of_isHeader rebind file (stateBehind rebind file facts above) hheader
  obtain rfl : m = m' := Option.some.inj (hm.symm.trans hm')
  refine ⟨(stateBehind rebind file facts above).facts.records.length, ?_, fun between => ?_⟩
  · rw [stateBehind_append]
    exact current_step_of_isHeader hheader
  · have hlen : (stateBehind rebind file facts above).facts.records.length <
        ((usual rebind).step file (stateBehind rebind file facts above) header).facts.records.length
      := by
      rw [length_step, hheader]
      exact Nat.lt_succ_self _
    rw [stateBehind_append, List.foldl_cons]
    refine ⟨?_, ?_⟩
    · rw [length_foldl]
      exact Nat.lt_add_right _ hlen
    · rw [← FunctionRecord.function_opened, opened_foldl between hlen, hrecord]
      rfl

/-- **Plain definitions are found, and bind the record that is current.**  The language is told from
the end of the file's name, and is Go if that is unknown.

A plain definition of a header's name, read while the header's record is current, is counted as the
function that is written there.  It gives the record its line and its code as the site, and behind
any of the lines that follow the record has that site, unless one of them was read for the record
and names its function. -/
theorem plain_definitions_bind :
    (∀ file,
      (Language.ofFileName file = .python ↔ Language.EndsIn file ".py") ∧
        (Language.ofFileName file = .ruby ↔ Language.EndsIn file ".rb") ∧
        (Language.ofFileName file = .go ↔
          ¬ Language.EndsIn file ".py" ∧ ¬ Language.EndsIn file ".rb")) ∧
    ∀ (rebind : Bool) (facts : Facts) (file text : String) (above between below : List String)
      (header line name : String) (m : Pattern.Match Part) (function code : List Char),
      let start := above ++ header :: between
      let behind := stateBehind rebind file facts
      linesOf text = start ++ line :: below →
      isHeader header = true → Form.header.pattern.match? header = some m →
      FunctionName.afterLastDot (m.get .function) = name → name ≠ "" →
      (behind start).current = (behind (above ++ [header])).current →
      Language.Plain name.toList (Language.ofFileName file) line.toList function code →
      (behind (start ++ [line])).facts.found =
          Tally.bump (behind start).facts.found (String.ofList function) ∧
        ∃ id, (behind (above ++ [header])).current = some id ∧
          ((behind (start ++ [line])).facts.record id).function = m.get .function ∧
          ((behind (start ++ [line])).facts.record id).site =
            some ⟨file, (start.length + 1 : Nat), String.ofList code⟩ ∧
          ∀ later, later <+: below →
            ((behind (start ++ line :: later)).facts.record id).site =
                some ⟨file, (start.length + 1 : Nat), String.ofList code⟩ ∨
              ∃ a line' b, later = a ++ line' :: b ∧
                (behind (start ++ line :: a)).current = some id ∧
                DefinesName (Language.ofFileName file) name line' := by
  refine ⟨Language.ofFileName_eq_iff, ?_⟩
  intro rebind facts file text above between below header line name m function code start behind
    hlines hheader hm hname hne hcurrent hplain
  have hmem : line ∈ linesOf text := by simp [hlines, start]
  have hn : '\n' ∉ line.toList := newline_not_mem_of_mem_linesOf hmem
  have hline : (behind start).line = start.length := (line_foldl _ start).trans (Nat.zero_add _)
  have hbehind : ∀ lines, behind (start ++ lines) =
      lines.foldl ((usual rebind).step file) (behind start) := stateBehind_append facts start
  have hstored : (behind start).Stored := stored_foldl start (State.stored_start file facts)
  obtain ⟨id, hid, hrecord⟩ := exists_record_of_isHeader rebind file facts above hheader hm
  have hshort : ((behind start).facts.record id).shortName = name := by
    rw [FunctionRecord.shortName, (hrecord between).2, hname]
  have hcur : (behind start).current = some id := hcurrent.trans hid
  rw [← hshort] at hplain hne
  refine ⟨?_, id, hid, ?_, ?_, fun later _ => ?_⟩
  · rw [hbehind, List.foldl_cons, List.foldl_nil]
    exact found_step_of_plain hplain (fun hnil => hne (String.toList_eq_nil_iff.mp hnil)) hn
  · have hlast : start ++ [line] = above ++ header :: (between ++ [line]) := by simp [start]
    rw [hlast]
    exact (hrecord (between ++ [line])).2
  · rw [hbehind, List.foldl_cons, List.foldl_nil, site_step_of_plain hplain hne hn hstored hcur,
      hline]
  · have hkept := site_foldl_of_plain rebind hplain hne hn hstored (hrecord between).1 hcur later
    simp only [← hbehind, hline, hshort] at hkept
    exact hkept

/-- A method below a line that ends the block, for a reader that rebinds. -/
theorem plain_definitions_bind_method :
    let header := "// ThreatSpec M for app.Handle"
    let line := "\tfunc (s *Server) Handle(w Writer) error  \x7b"
    let text := header ++ "\n\n" ++ line ++ "\n"
    let behind := stateBehind true "server.go" .empty
    linesOf text = [header, "", line] ∧ isHeader header = true ∧
      (behind [header, ""]).current = (behind [header]).current ∧
      Language.Plain "Handle".toList (Language.ofFileName "server.go") line.toList
        "(s *Server) Handle".toList "(s *Server) Handle(w Writer) error".toList ∧
      (behind [header, "", line]).facts.found =
        Tally.bump (behind [header, ""]).facts.found "(s *Server) Handle" ∧
      ∃ id, (behind [header]).current = some id ∧
        ((behind [header, "", line]).facts.record id).site =
          some ⟨"server.go", 3, "(s *Server) Handle(w Writer) error"⟩ := by
  intro header line text behind
  have hlines : linesOf text = [header, "", line] := by decide +kernel
  have hheader : isHeader header = true := by decide +kernel
  have hcurrent : (behind [header, ""]).current = (behind [header]).current := by decide +kernel
  have hreceiver : Language.IsReceiver ('(' :: ("s *Server".toList ++ ')' :: [' '])) :=
    .written (by decide) (by decide) (by decide) nofun
  have hrest : '\x7b' ∉ "w Writer) error ".toList := by decide
  have hshape : Language.Shape "Handle".toList .go
      "(s *Server) Handle(w Writer) error  \x7b".toList "(s *Server) Handle".toList
      "(s *Server) Handle(w Writer) error".toList :=
    .go (b := [' ']) hreceiver (by decide) hrest (by decide)
  have hblank : Language.AllBlank [' '] := by decide
  have hplain : Language.Plain "Handle".toList (Language.ofFileName "server.go") line.toList
      "(s *Server) Handle".toList "(s *Server) Handle(w Writer) error".toList :=
    .mk (b := ['\t']) (by decide) .go hblank (List.cons_ne_nil _ _) hshape (by decide)
  have hm := Option.some_get (x := Form.header.pattern.match? header) (by decide +kernel)
  obtain ⟨hfound, id, hid, -, hsite, -⟩ := plain_definitions_bind.2 true .empty "server.go" text []
    [""] [] header line "Handle" _ _ _ hlines hheader hm.symm (by decide +kernel) (by decide)
    hcurrent hplain
  rw [String.ofList_toList] at hfound hsite
  exact ⟨hlines, hheader, hcurrent, hplain, hfound, id, hid, hsite⟩

end Reader

end Annotations

end ThreatModel
