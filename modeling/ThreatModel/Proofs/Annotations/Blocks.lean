import ThreatModel.Proofs.Annotations.Rules
import ThreatModel.Proofs.Annotations.Step

/-!
# Blocks — the reader's state machine is a reading by blocks

A header line opens a block: the longest run of lines below it that some rule reads and that are no
headers (`block`).  Nothing but the lines is needed to say what a record gets: its package is that
of the nearest package line above its header (`packageAbove`), and its facts are what the five
fact forms read in the lines of its block.

The reader finds blocks with three pieces of state, followed here line by line:
* `inBlock_step`: it is in a block behind a header, and stays in it as long as rules read the lines;
* `package_step`: it knows the nearest package;
* `statements_step`: a line's fact goes to the current record if the reader is in its block.

`statements_foldl` is the run lemma: from a state in the block of a record, the record gets the
facts of what is left of its block, and no others ever after.  `reads_blocks` puts the pieces
together for whole sources.
-/

namespace ThreatModel.Annotations

/-! ### Lines and blocks -/

/-- What a form reads in a line. -/
def Form.read? (f : Form) (line : String) : Option Statement :=
  (f.pattern.match? line).map (f.statement line)

/-- The package that a line declares. -/
def packageIn? (line : String) : Option Package :=
  (Form.package.pattern.match? line).map fun m => ⟨m.get .package, m.get? .knownAs, line⟩

/-- The line reads as a header, and not as a package. -/
def isHeader (line : String) : Bool :=
  (Form.header.pattern.match? line).isSome && (Form.package.pattern.match? line).isNone

/-- Some rule reads the line. -/
def isRuled (language : Language) (line : String) : Bool :=
  rules.any fun r => (r.read? language line).isSome

/-- The block of a header, given the lines below it. -/
def block (language : Language) (below : List String) : List String :=
  below.takeWhile fun line => isRuled language line && !isHeader line

/-- The package of the nearest package line, given the lines above. -/
def packageAbove (above : List String) : Option Package := above.reverse.findSome? packageIn?

/-- The forms of the facts that count inside blocks only. -/
def factForms : List Form := [.mitigation, .exposure, .capability, .flow, .test]

/-- The line between the lines `above` and `below` is in the block of some header. -/
def InBlock (language : Language) (above : List String) (line : String) (below : List String) :
    Prop :=
  ∃ start h between, above = start ++ h :: between ∧ isHeader h = true ∧
    between.length < (block language (between ++ line :: below)).length

/-- A reader that tries the rules in their usual order. -/
def Reader.usual (rebind : Bool) : Reader := { rebind := rebind }

/-- The state in which a file is begun. -/
def State.start (file : String) (facts : Facts) : State :=
  { facts := facts, events := [.parsingFile file] }

theorem mem_factForms_iff {f : Form} : f ∈ factForms ↔ (Rule.form f).blockOnly = true := by
  cases f <;> decide

theorem isRuled_iff {l : Language} {line : String} :
    isRuled l line = true ↔ ∃ r : Rule, (r.read? l line).isSome := by
  simp only [isRuled, List.any_eq_true]
  exact ⟨fun ⟨r, _, hr⟩ => ⟨r, hr⟩, fun ⟨r, hr⟩ => ⟨r, mem_rules r, hr⟩⟩

theorem isHeader_iff {line : String} :
    isHeader line = true ↔ (Form.header.read? line).isSome ∧ Form.package.read? line = none := by
  simp [isHeader, Form.read?]

/-! ### The statement of a line by its form -/

variable {l : Language} {inBlock : Bool} {line : String} {st : Statement} {f : Form} {r : Rule}

theorem Form.form?_of_read? (h : f.read? line = some st) : st.form? = some f := by
  obtain ⟨m, -, rfl⟩ := Option.map_eq_some_iff.mp h
  exact Statement.form?_statement f line m

theorem read?_of_statement? (h : statement? rules l inBlock line = some st)
    (hf : st.form? = some f) : f.read? line = some st := by
  obtain ⟨r, -, hr⟩ := exists_read_of_statement? h
  cases r with
  | form g =>
      obtain rfl : g = f := Option.some.inj ((Form.form?_of_read? hr).symm.trans hf)
      exact hr
  | definition =>
      obtain ⟨m, -, rfl⟩ := Option.map_eq_some_iff.mp hr
      cases hf

/-- A header has a header's statement wherever it stands. -/
theorem statement?_of_isHeader (l : Language) (inBlock : Bool) (h : isHeader line = true) :
    ∃ st, Form.header.read? line = some st ∧ statement? rules l inBlock line = some st := by
  obtain ⟨hsome, hp⟩ := isHeader_iff.mp h
  obtain ⟨st, hst⟩ := Option.isSome_iff_exists.mp hsome
  exact ⟨st, hst, statement?_of_read (r := .form .header) hst (by simp [Rule.blockOnly]) fun _ => hp⟩

theorem form?_eq_header_iff (h : statement? rules l inBlock line = some st) :
    st.form? = some .header ↔ isHeader line = true := by
  refine ⟨fun hf => ?_, fun hh => ?_⟩
  · refine isHeader_iff.mpr ⟨by rw [read?_of_statement? h hf]; rfl, ?_⟩
    cases hp : Form.package.read? line with
    | none => rfl
    | some st' =>
        rw [statement?_of_package hp] at h
        cases h
        rw [Form.form?_of_read? hp] at hf
        cases hf
  · obtain ⟨st', hst', hs⟩ := statement?_of_isHeader l inBlock hh
    rw [h] at hs
    cases hs
    exact Form.form?_of_read? hst'

theorem form?_ne_header (h : statement? rules l inBlock line = some st)
    (hh : isHeader line = false) : st.form? ≠ some .header := by
  intro hf
  rw [(form?_eq_header_iff h).mp hf] at hh
  cases hh

theorem isHeader_eq_false (h : statement? rules l inBlock line = none) : isHeader line = false := by
  refine Bool.eq_false_iff.mpr fun hh => ?_
  obtain ⟨st, -, hst⟩ := statement?_of_isHeader l inBlock hh
  rw [h] at hst
  cases hst

/-! ### The rule of a statement -/

/-- The rule that a statement is read by. -/
def Statement.rule (st : Statement) : Rule := st.form?.elim .definition .form

theorem rule_of_form? (h : st.form? = some f) : st.rule = .form f := by
  rw [Statement.rule, h, Option.elim_some]

theorem rule_of_read? (h : r.read? l line = some st) : st.rule = r := by
  cases r with
  | form f => exact rule_of_form? (Form.form?_of_read? h)
  | definition =>
      obtain ⟨m, -, rfl⟩ := Option.map_eq_some_iff.mp h
      rfl

/-- Inside blocks only, statements are read by rules for blocks only. -/
theorem inBlock_of_statement? (h : statement? rules l inBlock line = some st)
    (hb : st.rule.blockOnly = true) : inBlock = true := by
  obtain ⟨r, hr, hread⟩ := exists_read_of_statement? h
  exact hr (rule_of_read? hread ▸ hb)

/-- **A rule that is tried everywhere decides what only its own statements show.** -/
theorem bind_statement? {β : Type} {view : Statement → Option β} (hb : r.blockOnly = false)
    (hr : r ≠ .form .header)
    (hview : ∀ st, statement? rules l inBlock line = some st → st.rule ≠ r → view st = none) :
    (statement? rules l inBlock line).bind view = (r.read? l line).bind view := by
  cases hread : r.read? l line with
  | some st =>
      rw [statement?_of_read hread (fun h => by rw [hb] at h; cases h) fun h => absurd h hr]
  | none =>
      cases hst : statement? rules l inBlock line with
      | none => rfl
      | some st =>
          refine hview st hst fun hrule => ?_
          obtain ⟨r', -, hread'⟩ := exists_read_of_statement? hst
          obtain rfl : r' = r := (rule_of_read? hread').symm.trans hrule
          rw [hread] at hread'
          cases hread'

theorem bind_package?_statement? :
    (statement? rules l inBlock line).bind Statement.package? = packageIn? line := by
  rw [bind_statement? (r := .form .package) rfl (by decide) fun st _ hrule => ?_]
  · rw [packageIn?, Rule.read?]
    cases Form.package.pattern.match? line <;> rfl
  · cases st with
    | package => exact absurd rfl hrule
    | _ => rfl

/-- Inside a block a line's fact is its statement; outside, a fact form reads in vain. -/
theorem filter_statement? (l : Language) (inBlock : Bool) (line : String) (hf : f ∈ factForms) :
    ((statement? rules l inBlock line).filter fun st => st.form? = some f) =
      if inBlock then f.read? line else none := by
  have hblock := mem_factForms_iff.mp hf
  cases hb : inBlock with
  | true =>
      cases hread : f.read? line with
      | some st =>
          have hs : statement? rules l true line = some st :=
            statement?_of_read (r := .form f) hread (fun _ => rfl) fun h => by
              cases h
              simp [Rule.blockOnly] at hblock
          simp [hs, Option.filter, Form.form?_of_read? hread]
      | none =>
          rw [if_pos rfl, Option.filter_eq_none_iff]
          intro st hst hform
          rw [read?_of_statement? hst (by simpa using hform)] at hread
          cases hread
  | false =>
      rw [if_neg (by simp), Option.filter_eq_none_iff]
      intro st hst hform
      have hrule : st.rule = .form f := rule_of_form? (by simpa using hform)
      cases inBlock_of_statement? hst (hrule ▸ hblock)

/-- A line with a fact says nothing outside blocks. -/
theorem statement?_fact_outside (hf : f ∈ factForms) (h : (f.read? line).isSome) :
    statement? rules l false line = none := by
  refine Option.eq_none_iff_forall_ne_some.mpr fun st hst => ?_
  obtain ⟨r, hr, hread⟩ := exists_read_of_statement? hst
  have hfact := mem_factForms_iff.mp hf
  rcases rule_unique (r := .form f) (l := l) h (by rw [hread]; rfl) with rfl | ⟨hf, -⟩ | ⟨hf, -⟩
  · cases hr hfact
  · rw [hf] at hfact
    cases hfact
  · rw [hf] at hfact
    cases hfact

theorem read?_eq_none_of_isHeader (hf : f ∈ factForms) (h : isHeader line = true) :
    f.read? line = none := by
  obtain ⟨st, hst, hs⟩ := statement?_of_isHeader .go true h
  cases hread : f.read? line with
  | none => rfl
  | some st' =>
      have hs' := filter_statement? .go true line hf
      rw [hs, if_pos rfl, hread, Option.filter_some, Form.form?_of_read? hst] at hs'
      have hne : f ≠ .header := fun e => absurd (mem_factForms_iff.mp hf) (by simp [e, Rule.blockOnly])
      simp [hne.symm] at hs'

theorem read?_eq_none_of_not_isRuled (f : Form) (h : isRuled l line = false) :
    f.read? line = none := by
  cases hread : f.read? line with
  | none => rfl
  | some st =>
      rw [isRuled_iff.mpr ⟨.form f, show (f.read? line).isSome by rw [hread]; rfl⟩] at h
      cases h

theorem block_cons_of_isRuled {lines : List String} (hh : isHeader line = false)
    (hr : isRuled l line = true) : block l (line :: lines) = line :: block l lines := by
  rw [block, List.takeWhile_cons_of_pos (by simp [hh, hr]), ← block]

theorem block_cons_of_not_isRuled {lines : List String} (hr : isRuled l line = false) :
    block l (line :: lines) = [] := by
  rw [block, List.takeWhile_cons_of_neg (by simp [hr])]

theorem block_cons_of_isHeader {lines : List String} (hh : isHeader line = true) :
    block l (line :: lines) = [] := by
  rw [block, List.takeWhile_cons_of_neg (by simp [hh])]

/-! ### Steps -/

namespace Reader

variable {rebind : Bool} {file : String} {s : State} {id : RecordId}

/-- **A reader is in a block behind a header, and stays in it while rules read the lines.** -/
theorem inBlock_step : ((usual rebind).step file s line).inBlock =
    (isHeader line || (s.inBlock && isRuled (Language.ofFileName file) line)) := by
  cases h : statement? rules (Language.ofFileName file) s.inBlock line with
  | some st =>
      have hruled : isRuled (Language.ofFileName file) line = true := by
        obtain ⟨r, -, hr⟩ := exists_read_of_statement? h
        exact isRuled_iff.mpr ⟨r, by simp [hr]⟩
      have hform : decide (st.form? = some .header) = isHeader line :=
        Bool.eq_iff_iff.mpr (by simpa using form?_eq_header_iff h)
      rw [step_of_some h, State.inBlock_store, State.apply_eq, hruled, Bool.and_true, ← hform]
  | none =>
      rw [step_of_none h, State.inBlock_store, isHeader_eq_false h, Bool.false_or]
      cases hb : s.inBlock with
      | false => rfl
      | true =>
          refine (Bool.eq_false_iff.mpr fun hruled => ?_).symm
          obtain ⟨r, hr⟩ := isRuled_iff.mp hruled
          rw [statement?_eq_none_iff.mp h r fun _ => hb] at hr
          cases hr

theorem package_step :
    ((usual rebind).step file s line).package = (packageIn? line).or s.package := by
  have hpackage : (statement? rules (Language.ofFileName file) s.inBlock line).bind
      Statement.package? = packageIn? line := bind_package?_statement?
  rw [← hpackage]
  cases h : statement? rules (Language.ofFileName file) s.inBlock line with
  | some st =>
      rw [step_of_some h, State.package_store, State.apply_eq]
      rfl
  | none =>
      rw [step_of_none h, State.package_store]
      rfl

/-- The record of a header becomes the current one. -/
theorem current_step_of_isHeader (h : isHeader line = true) :
    ((usual rebind).step file s line).current = some s.facts.records.length := by
  obtain ⟨st, hst, hs⟩ := statement?_of_isHeader (Language.ofFileName file) s.inBlock h
  rw [step_of_some hs, State.current_store, State.apply_eq]
  exact if_pos (Form.form?_of_read? hst)

/-- A statement that is no header leaves the current record. -/
theorem current_step_of_some
    (hs : statement? rules (Language.ofFileName file) s.inBlock line = some st)
    (h : isHeader line = false) : ((usual rebind).step file s line).current = s.current := by
  rw [step_of_some hs, State.current_store, State.apply_eq]
  exact if_neg (form?_ne_header hs h)

/-- A line without a statement leaves the current record only to a reader that rebinds. -/
theorem current_step_of_none
    (hs : statement? rules (Language.ofFileName file) s.inBlock line = none) :
    ((usual rebind).step file s line).current = if rebind then s.current else none := by
  rw [step_of_none hs, State.current_store]
  rfl

/-- Only a header makes another record the current one. -/
theorem current_of_current_step (h : isHeader line = false)
    (hid : ((usual rebind).step file s line).current = some id) : s.current = some id := by
  cases hs : statement? rules (Language.ofFileName file) s.inBlock line with
  | some st => exact (current_step_of_some hs h).symm.trans hid
  | none =>
      rw [current_step_of_none hs] at hid
      cases rebind with
      | true => exact hid
      | false => cases hid

/-- Within a block the current record stays. -/
theorem current_step_of_isRuled (h : isHeader line = false) (hb : s.inBlock = true)
    (hr : isRuled (Language.ofFileName file) line = true) :
    ((usual rebind).step file s line).current = s.current := by
  cases hs : statement? rules (Language.ofFileName file) s.inBlock line with
  | some st => exact current_step_of_some hs h
  | none =>
      obtain ⟨r, hr⟩ := isRuled_iff.mp hr
      rw [statement?_eq_none_iff.mp hs r fun _ => hb] at hr
      cases hr

/-- One record is created at each header. -/
theorem length_step : ((usual rebind).step file s line).facts.records.length =
    s.facts.records.length + if isHeader line then 1 else 0 := by
  cases hs : statement? rules (Language.ofFileName file) s.inBlock line with
  | some st =>
      have hnew : (st.record? s.package line).toList.length = if isHeader line then 1 else 0 := by
        simp only [← form?_eq_header_iff hs]
        cases st <;> rfl
      rw [records_step_of_some hs, List.length_append, State.length_onCurrent, hnew]
  | none =>
      rw [records_step_of_none hs, isHeader_eq_false hs]
      rfl

theorem length_le_step (rebind : Bool) (file line : String) : s.facts.records.length ≤
    ((usual rebind).step file s line).facts.records.length := by
  rw [length_step]
  exact Nat.le_add_right _ _

/-- What a header gives its record. -/
theorem record_step_of_isHeader (rebind : Bool) (file : String) (s : State)
    (h : isHeader line = true) :
    ∃ m, Form.header.pattern.match? line = some m ∧
      ((usual rebind).step file s line).facts.record s.facts.records.length =
        { model := m.get .model, function := m.get .function, package := s.package,
          raw := line } := by
  obtain ⟨st, hst, hs⟩ := statement?_of_isHeader (Language.ofFileName file) s.inBlock h
  obtain ⟨m, hm, rfl⟩ := Option.map_eq_some_iff.mp hst
  exact ⟨m, hm, record_step_new hs rfl⟩

theorem opened_step (hid : id < s.facts.records.length) :
    (((usual rebind).step file s line).facts.record id).opened = (s.facts.record id).opened := by
  cases hs : statement? rules (Language.ofFileName file) s.inBlock line with
  | some st =>
      rw [record_step_of_some hs hid]
      split
      · exact Statement.opened_addTo
      · rfl
  | none => rw [Facts.record, records_step_of_none hs, Facts.record]

/-- **A line's fact goes to the current record if the reader is in its block**, and to no other. -/
theorem statements_step (hf : f ∈ factForms) (hid : id < s.facts.records.length) :
    (((usual rebind).step file s line).facts.record id).statements f =
      (s.facts.record id).statements f ++
        if s.inBlock = true ∧ s.current = some id then (f.read? line).toList else [] := by
  have hread := congrArg Option.toList (filter_statement? (Language.ofFileName file) s.inBlock line hf)
  cases hs : statement? rules (Language.ofFileName file) s.inBlock line with
  | some st =>
      rw [hs, Option.filter_some, apply_ite Option.toList] at hread
      rw [record_step_of_some hs hid]
      by_cases hcur : s.current = some id
      · rw [if_pos hcur, Statement.statements_addTo (mem_factForms_iff.mp hf)]
        simpa [hcur, apply_ite Option.toList] using hread
      · simp [hcur]
  | none =>
      rw [hs, Option.filter_none, apply_ite Option.toList] at hread
      rw [Facts.record, records_step_of_none hs, ← Facts.record]
      cases hb : s.inBlock <;> simp_all

/-! ### Runs -/

theorem length_foldl (lines : List String) :
    (lines.foldl ((usual rebind).step file) s).facts.records.length =
      s.facts.records.length + lines.countP isHeader := by
  induction lines generalizing s with
  | nil => rfl
  | cons line lines ih =>
      rw [List.foldl_cons, ih, length_step, List.countP_cons]
      omega

theorem package_foldl (lines : List String) :
    (lines.foldl ((usual rebind).step file) s).package =
      (packageAbove lines).or s.package := by
  induction lines generalizing s with
  | nil => rfl
  | cons line lines ih =>
      rw [List.foldl_cons, ih, package_step, packageAbove, packageAbove, List.reverse_cons,
        List.findSome?_append, Option.or_assoc, List.findSome?_singleton]

theorem opened_foldl (lines : List String) (hid : id < s.facts.records.length) :
    ((lines.foldl ((usual rebind).step file) s).facts.record id).opened =
      (s.facts.record id).opened := by
  induction lines generalizing s with
  | nil => rfl
  | cons line lines ih =>
      have hlen := Nat.lt_of_lt_of_le hid (length_le_step rebind file line)
      rw [List.foldl_cons, ih hlen, opened_step hid]

/-- **A record gets the facts of what is left of its block, and no others.** -/
theorem statements_foldl (lines : List String) (hf : f ∈ factForms)
    (hid : id < s.facts.records.length) :
    ((lines.foldl ((usual rebind).step file) s).facts.record id).statements f =
      (s.facts.record id).statements f ++
        if s.inBlock = true ∧ s.current = some id then
          (block (Language.ofFileName file) lines).filterMap f.read?
        else [] := by
  induction lines generalizing s with
  | nil => simp [block]
  | cons line lines ih =>
      have hlen := Nat.lt_of_lt_of_le hid (length_le_step rebind file line)
      rw [List.foldl_cons, ih hlen, statements_step hf hid, List.append_assoc]
      refine congrArg _ ?_
      by_cases hs : s.inBlock = true ∧ s.current = some id
      · rw [if_pos hs, if_pos hs]
        cases hh : isHeader line with
        | true =>
            -- the next header takes the place of the current record
            have hne : s.facts.records.length ≠ id := Nat.ne_of_gt hid
            rw [read?_eq_none_of_isHeader hf hh, block_cons_of_isHeader hh,
              current_step_of_isHeader hh]
            simp [hne]
        | false =>
            cases hr : isRuled (Language.ofFileName file) line with
            | true =>
                rw [block_cons_of_isRuled hh hr, current_step_of_isRuled hh hs.1 hr,
                  inBlock_step, hh, hr]
                cases hread : f.read? line <;> simp [hs, hread]
            | false =>
                rw [read?_eq_none_of_not_isRuled f hr, block_cons_of_not_isRuled hr,
                  inBlock_step, hh, hr]
                simp
      · -- no line brings a reader back into the block of an older record
        rw [if_neg hs, if_neg hs, List.nil_append, if_neg]
        rintro ⟨hb, hcur⟩
        cases hh : isHeader line with
        | true =>
            rw [current_step_of_isHeader hh] at hcur
            exact Nat.ne_of_gt hid (Option.some.inj hcur)
        | false =>
            rw [inBlock_step, hh, Bool.false_or, Bool.and_eq_true] at hb
            exact hs ⟨hb.1, current_of_current_step hh hcur⟩

/-- A reader that is in a block got there behind a header, or was in one from the start. -/
theorem exists_header_of_inBlock_foldl (lines : List String)
    (h : (lines.foldl ((usual rebind).step file) s).inBlock = true) :
    (∃ start h between, lines = start ++ h :: between ∧ isHeader h = true ∧
      ∀ l ∈ between, isRuled (Language.ofFileName file) l = true ∧ isHeader l = false) ∨
    (s.inBlock = true ∧
      ∀ l ∈ lines, isRuled (Language.ofFileName file) l = true ∧ isHeader l = false) := by
  induction lines generalizing s with
  | nil => exact .inr ⟨h, by simp⟩
  | cons line lines ih =>
      rcases ih h with ⟨start, head, between, rfl, hh, hb⟩ | ⟨hin, hb⟩
      · exact .inl ⟨line :: start, head, between, rfl, hh, hb⟩
      · rw [inBlock_step] at hin
        cases hh : isHeader line with
        | true => exact .inl ⟨[], line, lines, rfl, hh, hb⟩
        | false =>
            rw [hh, Bool.false_or, Bool.and_eq_true] at hin
            exact .inr ⟨hin.1, List.forall_mem_cons.mpr ⟨⟨hin.2, hh⟩, hb⟩⟩

/-- The accounts of records are left alone that are there and not the current one. -/
theorem account_foldl_of_ne (lines : List String) (hid : id < s.facts.records.length)
    (hcur : s.current ≠ some id) :
    (lines.foldl ((usual rebind).step file) s).facts.account id = s.facts.account id := by
  induction lines generalizing s with
  | nil => rfl
  | cons line lines ih =>
      have hlen := Nat.lt_of_lt_of_le hid (length_le_step rebind file line)
      have hnext : ((usual rebind).step file s line).current ≠ some id := by
        intro h
        cases hh : isHeader line with
        | true =>
            -- a header makes a record behind all there are the current one
            rw [current_step_of_isHeader hh] at h
            exact Nat.lt_irrefl _ (Option.some.inj h ▸ hid)
        | false => exact hcur (current_of_current_step hh h)
      rw [List.foldl_cons, ih hlen hnext]
      cases hs : statement? rules (Language.ofFileName file) s.inBlock line with
      | some st => rw [account_step_of_some hs hid, if_neg hcur]
      | none => exact account_step_of_none hs

/-- The accounts of records made before the current one are left alone. -/
theorem account_foldl_of_lt (lines : List String) (hid : id < s.facts.records.length)
    (hcur : ∀ i, s.current = some i → id < i) :
    (lines.foldl ((usual rebind).step file) s).facts.account id = s.facts.account id :=
  account_foldl_of_ne lines hid fun h => Nat.lt_irrefl _ (hcur id h)

/-- Records made before the block of the current one are left alone. -/
theorem record_foldl_of_lt (lines : List String) (hid : id < s.facts.records.length)
    (hcur : ∀ i, s.current = some i → id < i) :
    (lines.foldl ((usual rebind).step file) s).facts.record id = s.facts.record id :=
  congrArg Account.record (account_foldl_of_lt lines hid hcur)

end Reader

/-! ### Files -/

/-- What the lines of a file say of the record of the header `h`. -/
structure Describes (language : Language) (above : List String) (h : String) (below : List String)
    (r : FunctionRecord) : Prop where
  raw : r.raw = h
  header : ∃ m, Form.header.pattern.match? h = some m ∧
    r.model = m.get .model ∧ r.function = m.get .function
  package : r.package = packageAbove above
  statements : ∀ f ∈ factForms, r.statements f = (block language below).filterMap f.read?

namespace Reader

variable {rebind : Bool} {file : String} {facts : Facts}

/-- The facts behind the lines of a file. -/
theorem readLines_fst (r : Reader) (file : String) (facts : Facts) (lines : List String) :
    (r.readLines file facts lines).1 =
      (lines.foldl (r.step file) (.start file facts)).facts := rfl

/-- The records made so far count the headers read. -/
theorem length_readLines (lines : List String) :
    ((usual rebind).readLines file facts lines).1.records.length =
      facts.records.length + lines.countP isHeader :=
  length_foldl lines

/-- The lines around a header make its record what they say of it. -/
theorem describes_readLines {above below : List String} {h : String} (hh : isHeader h = true) :
    Describes (Language.ofFileName file) above h below
      (((usual rebind).readLines file facts (above ++ h :: below)).1.record
        (facts.records.length + above.countP isHeader)) := by
  have hid : (above.foldl ((usual rebind).step file) (.start file facts)).facts.records.length =
      facts.records.length + above.countP isHeader := length_foldl above
  have hpackage : (above.foldl ((usual rebind).step file) (.start file facts)).package =
      packageAbove above := (package_foldl above).trans Option.or_none
  rw [← hid, readLines_fst, List.foldl_append, List.foldl_cons]
  -- only the number of records and the package matter of the lines above
  generalize above.foldl ((usual rebind).step file) _ = s at hid hpackage ⊢
  obtain ⟨m, hm, hrecord⟩ := record_step_of_isHeader rebind file s hh
  have hlen : s.facts.records.length < ((usual rebind).step file s h).facts.records.length := by
    rw [length_step, hh]
    exact Nat.lt_succ_self _
  have hopened : ((below.foldl ((usual rebind).step file)
      ((usual rebind).step file s h)).facts.record s.facts.records.length).opened = _ :=
    opened_foldl below hlen
  rw [hrecord, hpackage] at hopened
  refine ⟨congrArg FunctionRecord.raw hopened,
    ⟨m, hm, congrArg FunctionRecord.model hopened, congrArg FunctionRecord.function hopened⟩,
    congrArg FunctionRecord.package hopened, fun f hf => ?_⟩
  have hin : ((usual rebind).step file s h).inBlock = true := by rw [inBlock_step, hh, Bool.true_or]
  rw [statements_foldl below hf hlen, hrecord, if_pos ⟨hin, current_step_of_isHeader hh⟩]
  cases f <;> simp [FunctionRecord.statements]

/-- A line that is read in a block, and is no header, is in that block. -/
theorem inBlock_of_readLines {above below : List String}
    (h : (above.foldl ((usual rebind).step file) (.start file facts)).inBlock = true)
    (hh : isHeader line = false) (hr : isRuled (Language.ofFileName file) line = true) :
    InBlock (Language.ofFileName file) above line below := by
  rcases exists_header_of_inBlock_foldl above h with ⟨start, head, between, rfl, hhead, hb⟩ | ⟨h, -⟩
  · refine ⟨start, head, between, rfl, hhead, ?_⟩
    have hpass : ∀ l ∈ between,
        (isRuled (Language.ofFileName file) l && !isHeader l) = true := fun l hl => by
      simp [hb l hl]
    rw [block, List.takeWhile_append_of_pos hpass, ← block, block_cons_of_isRuled hh hr]
    simp
  · cases h

/-- A fact outside of blocks changes no record and is not counted. -/
theorem readLines_fact_outside {above below : List String} (hf : f ∈ factForms)
    (hread : (f.read? line).isSome)
    (hout : ¬ InBlock (Language.ofFileName file) above line below) :
    ((usual rebind).readLines file facts (above ++ [line])).1.records =
        ((usual rebind).readLines file facts above).1.records ∧
      ((usual rebind).readLines file facts (above ++ [line])).1.covered =
        ((usual rebind).readLines file facts above).1.covered := by
  have hh : isHeader line = false := Bool.eq_false_iff.mpr fun hh => by
    rw [read?_eq_none_of_isHeader hf hh] at hread
    cases hread
  have hr : isRuled (Language.ofFileName file) line = true := isRuled_iff.mpr ⟨.form f, hread⟩
  have hin : (above.foldl ((usual rebind).step file) (.start file facts)).inBlock = false :=
    Bool.eq_false_iff.mpr fun h => hout (inBlock_of_readLines h hh hr)
  rw [readLines_fst, readLines_fst, List.foldl_append, List.foldl_cons, List.foldl_nil]
  generalize above.foldl ((usual rebind).step file) _ = s at hin ⊢
  have hnone : statement? rules (Language.ofFileName file) s.inBlock line = none := by
    rw [hin]
    exact statement?_fact_outside hf hread
  rw [records_step_of_none hnone, step_of_none hnone, State.covered_store]
  exact ⟨rfl, rfl⟩

/-- A source is read by its blocks. -/
structure ReadsBlocks (r : Reader) (facts : Facts) (file text : String) : Prop where
  /-- Each header makes one record, behind those there are. -/
  made : ∀ above below, linesOf text = above ++ below →
    (r.readLines file facts above).1.records.length =
      facts.records.length + above.countP isHeader
  /-- The record of a header is what its package, its line and its block say. -/
  described : ∀ above h below, linesOf text = above ++ h :: below → isHeader h = true →
    Describes (Language.ofFileName file) above h below
      ((r.readSource facts file text).1.record (facts.records.length + above.countP isHeader))
  /-- Facts outside of blocks go to no record. -/
  outside : ∀ above line below, linesOf text = above ++ line :: below →
    (∃ f ∈ factForms, (f.read? line).isSome) →
    ¬ InBlock (Language.ofFileName file) above line below →
    (r.readLines file facts (above ++ [line])).1.records = (r.readLines file facts above).1.records ∧
      (r.readLines file facts (above ++ [line])).1.covered = (r.readLines file facts above).1.covered
  /-- The records of other sources stay as they are. -/
  kept : ∀ id < facts.records.length,
    (r.readSource facts file text).1.record id = facts.record id

/-- **Every source is read by its blocks**, whether definitions bind behind a block or not. -/
theorem reads_blocks (rebind : Bool) (facts : Facts) (file text : String) :
    ReadsBlocks (usual rebind) facts file text where
  made above _ _ := length_readLines above
  described above h below hlines hh := by
    rw [readSource, hlines]
    exact describes_readLines hh
  outside above line below _ hfact hout := by
    obtain ⟨f, hf, hread⟩ := hfact
    exact readLines_fact_outside hf hread hout
  kept id hid := record_foldl_of_lt _ hid fun i hi => by cases hi

/-- A fact counts up to the empty line that ends its block. -/
example :
    ((usual true).readSource .empty "a.go"
      "// ThreatSpec M for F\n// Tests F for T\n\n// Tests F for U").1.records.map
        FunctionRecord.tests =
      [[⟨"F", "T", none, "// Tests F for T"⟩]] := by
  decide +kernel

end Reader

end ThreatModel.Annotations
