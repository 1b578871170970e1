import ThreatModel.Proofs.CommandLine.Arguments
import ThreatModel.Proofs.CommandLine.Streams
import ThreatModel.Proofs.Report.Title
import ThreatModel.Yaml.Loader

/-!
# Joining — one session for the report and the diagram

The command `run` is `report` and then `diagram`, although it reads settings and sources once and
its words are others.  For words that ask the three commands for one invocation, on the same files
and with the same call graph on the input:

* it prints what `report` prints and then what `diagram` prints;
* it leaves the files that `diagram` leaves, and `report` leaves them as they were;
* it ends as `diagram` ends, and well if and only if both end well.

Nothing is assumed of the loader, of settings, sources or call graph: what stops one of the commands
stops `run` at the same point.  At one point that is before the diagram: a report whose title holds
half of a character cannot be printed (`Invocation.Unprintable`), so that `run` ends there as
`report` does, where `diagram` would go on.  These two cases are `run_joins`.
-/

namespace ThreatModel.CommandLine

/-- One outcome is two others on the same files, one after the other; the first writes none. -/
structure Outcome.Joins (t : FileTree) (both first second : Outcome) : Prop where
  out : both.out = first.out ++ second.out
  unchanged : first.files = t
  files : both.files = second.files
  exitCode : both.exitCode = second.exitCode
  failure : both.failure = second.failure
  succeeds : both.exitCode = 0 ↔ first.exitCode = 0 ∧ second.exitCode = 0

/-- A session that ends at a report that it cannot print, before it did anything else. -/
structure Outcome.Unprinted (t : FileTree) (o : Outcome) : Prop where
  out : o.out = ""
  files : o.files = t
  exitCode : o.exitCode = 1
  failure : o.failure = some .unprintable

/-- Sessions that stop for one reason before they print. -/
theorem Outcome.Joins.of_stop {t : FileTree} {e : Stop} {c c₁ c₂ : Console}
    (hc : c.Untouched t) (hc₁ : c₁.Untouched t) (hc₂ : c₂.Untouched t) :
    Joins t (.ofResult (.error e c)) (.ofResult (.error e c₁)) (.ofResult (.error e c₂)) := by
  have hjoins (code : Nat) (failure : Option Failure) :
      Joins t ⟨code, failure, c.out, c.err, c.files⟩ ⟨code, failure, c₁.out, c₁.err, c₁.files⟩
        ⟨code, failure, c₂.out, c₂.err, c₂.files⟩ :=
    { out := by rw [hc.out, hc₁.out, hc₂.out, String.empty_append]
      unchanged := hc₁.files
      files := hc.files.trans hc₂.files.symm
      exitCode := rfl
      failure := rfl
      succeeds := and_self_iff.symm }
  cases e with
  | exit code => exact hjoins code none
  | failed f => exact hjoins 1 (some f)

namespace Session

variable {text : String} {x y : EStateM.Result Stop Console Unit}

/-- Results that are alike give the same outcome, but for the text before the output. -/
theorem Alike.outcome (h : Alike text x y) : Outcome.ofResult y =
    { Outcome.ofResult x with
      out := text ++ (Outcome.ofResult x).out
      err := (Outcome.ofResult y).err } := by
  cases x with
  | ok u c =>
      obtain ⟨c', rfl, hfiles, hout⟩ := h.of_ok
      simp only [Outcome.ofResult, hfiles, hout]
  | error e c =>
      obtain ⟨c', rfl, hfiles, hout⟩ := h.of_error
      cases e with
      | exit code => simp only [Outcome.ofResult, hfiles, hout]
      | failed f => simp only [Outcome.ofResult, hfiles, hout]

/-- A session that printed a text and one that drew give a session that drew behind the text. -/
theorem Alike.joins {t : FileTree} {d : Console} (h : Alike text x y) (hfiles : d.files = t)
    (hout : d.out = text) :
    Outcome.Joins t (.ofResult y) (.ofResult (.ok () d)) (.ofResult x) := by
  rw [h.outcome]
  exact
    { out := by rw [← hout]; rfl
      unchanged := hfiles
      files := rfl
      exitCode := rfl
      failure := rfl
      succeeds := ⟨fun hcode => ⟨rfl, hcode⟩, fun hcodes => hcodes.2⟩ }

variable {L : Settings.Loader} {a : Arguments} {r : Settings × Facts} {cmd : Command}

theorem present_report (a : Arguments) (input : CallGraph.Source) (r : Settings × Facts)
    {report : String} (h : Text.narrow? (reportOf a r) = some report) (c : Console) :
    present .report a input r c = .ok () (c.printed report) := by
  show (print (reportOf a r) >>= fun _ => pure ()) c = _
  rw [bind_eq, print_of_narrow?, h]
  rfl

theorem present_diagram (a : Arguments) (input : CallGraph.Source) (r : Settings × Facts)
    (c : Console) : present .diagram a input r c = diagram a r.1 r.2 input c := rfl

theorem present_run (a : Arguments) (input : CallGraph.Source) (r : Settings × Facts)
    {report : String} (h : Text.narrow? (reportOf a r) = some report) (c : Console) :
    present .run a input r c = diagram a r.1 r.2 input (c.printed report) := by
  show (print (reportOf a r) >>= fun _ => diagram a r.1 r.2 input) c = _
  rw [bind_eq, print_of_narrow?, h]

/-- A report that is no text stops every command that prints it. -/
theorem present_of_unprintable (hprints : cmd.prints) (h : Text.narrow? (reportOf a r) = none)
    (input : CallGraph.Source) (c : Console) :
    present cmd a input r c = .error (.failed .unprintable) c := by
  rw [present, if_pos hprints, bind_eq, print_of_narrow?, h]

end Session

variable {L : Settings.Loader} {i : Invocation} {cmd cmd' : Command} {a a' a₁ a₂ : Arguments}
  {t : FileTree} {input input' : CallGraph.Source}

namespace Invocation.GivenBy

/-- An option that both commands have. -/
theorem value_eq (h : i.GivenBy cmd a) (h' : i.GivenBy cmd' a') {f : Flag} (hvalue : f.takesValue)
    (hf : f ∈ cmd.flags) (hf' : f ∈ cmd'.flags) : a.value? f = a'.value? f :=
  (h.value f hf hvalue).trans (h'.value f hf' hvalue).symm

theorem prepare_eq (h : i.GivenBy cmd a) (h' : i.GivenBy cmd' a') :
    Session.prepare L a = Session.prepare L a' := by
  rw [Session.prepare, Session.prepare, Session.settings, Session.settings, h.config, h'.config]
  simp only [Session.facts, h.files, h'.files]

theorem reportOf_eq (h : i.GivenBy .report a) (h' : i.GivenBy .run a') (r : Settings × Facts) :
    Session.reportOf a r = Session.reportOf a' r := by
  have htitle : a.value? .title = a'.value? .title := h.value_eq h' rfl (by decide) (by decide)
  rw [Session.reportOf, Session.reportOf, Session.titleOf, Session.titleOf, htitle]

theorem diagram_eq (h : i.GivenBy .diagram a) (h' : i.GivenBy .run a') (s : Settings) (f : Facts)
    (input : CallGraph.Source) : Session.diagram a s f input = Session.diagram a' s f input := by
  have hout : a.value? .output = a'.value? .output := h.value_eq h' rfl (by decide) (by decide)
  have hformat : a.value? .format = a'.value? .format := h.value_eq h' rfl (by decide) (by decide)
  rw [Session.diagram, Session.diagram, hout, hformat]

/-- **Which report is no text.**  No title is given, and half of a character is in that of the
settings. -/
theorem narrow?_reportOf_eq_none_iff (h : i.GivenBy cmd a) (htitle : .title ∈ cmd.flags)
    (r : Settings × Facts) : Text.narrow? (Session.reportOf a r) = none ↔
      Text.given? i.title = none ∧ ∃ w ∈ r.1.title, ∃ p ∈ w, p.IsHalf := by
  rw [Session.reportOf, Report.narrow?_wideOfFacts_eq_none_iff, Session.titleOf,
    h.value .title htitle rfl, Invocation.value?]
  cases Text.given? i.title with
  | none => simp
  | some title => simpa using Text.not_exists_isHalf_wide title

end Invocation.GivenBy

namespace Invocation

/-- What an invocation reads: settings, and the facts of the sources. -/
def Reads (L : Settings.Loader) (t : FileTree) (i : Invocation) (r : Settings × Facts) : Prop :=
  (Settings.load L t i.config).2 = .ok r.1 ∧
    ∃ es, Annotations.Reader.readFiles { rebind := r.1.reader.rebindAfterBlock } t i.files =
      .ok (r.2, es)

/-- The report of an invocation cannot be printed: everything is read, no title is given, and half
of a character is in that of the settings. -/
structure Unprintable (L : Settings.Loader) (t : FileTree) (i : Invocation) : Prop where
  passes : i.Passes t
  untitled : Text.given? i.title = none
  half : ∃ r, i.Reads L t r ∧ ∃ w ∈ r.1.title, ∃ p ∈ w, p.IsHalf

theorem GivenBy.exists_prepare_eq_ok_iff (h : i.GivenBy cmd a) (verbose : Bool)
    {r : Settings × Facts} :
    (∃ c, Session.prepare L a { files := t, verbose := verbose } = .ok r c) ↔ i.Reads L t r := by
  rw [Session.exists_prepare_eq_ok_iff, h.config, h.files, Reads]

end Invocation

/-- **Commands that are given one invocation.**  They prepare alike; from there `run` prints the
report and draws behind it. -/
theorem command_joins (h₁ : i.GivenBy .report a₁) (h₂ : i.GivenBy .diagram a₂)
    (h : i.GivenBy .run a) (hpasses : i.Passes t) (hprintable : ¬ i.Unprintable L t) :
    Outcome.Joins t (.ofResult (Session.command L .run a input { files := t }))
      (.ofResult (Session.command L .report a₁ input' { files := t }))
      (.ofResult (Session.command L .diagram a₂ input { files := t })) := by
  rw [Session.command_eq, Session.command_eq, Session.command_eq, h₁.prepare_eq h,
    h₂.prepare_eq h, Session.bind_eq, Session.bind_eq, Session.bind_eq]
  rcases Session.prepare_alike L a t with ⟨r, hprepare⟩ | ⟨e, hprepare⟩
  · obtain ⟨c, hr, hc⟩ := hprepare (a.has .verbose)
    obtain ⟨c₁, hr₁, hc₁⟩ := hprepare (a₁.has .verbose)
    obtain ⟨c₂, hr₂, hc₂⟩ := hprepare (a₂.has .verbose)
    have hreads : i.Reads L t r := (h.exists_prepare_eq_ok_iff _).mp ⟨c, hr⟩
    have hreport : ∃ report, Text.narrow? (Session.reportOf a r) = some report := by
      refine Option.ne_none_iff_exists'.mp fun hnone => hprintable ?_
      obtain ⟨huntitled, hhalf⟩ := (h.narrow?_reportOf_eq_none_iff (by decide) r).mp hnone
      exact ⟨hpasses, huntitled, r, hreads, hhalf⟩
    obtain ⟨report, hreport⟩ := hreport
    have hprinted : Console.Behind report c₂ (c.printed report) := by
      refine ⟨hc.files.trans hc₂.files.symm, ?_⟩
      show c.out ++ report = report ++ c₂.out
      rw [hc.out, hc₂.out, String.empty_append, String.append_empty]
    have hdrawn := Session.oblivious_diagram a r.1 r.2 input _ _ _ hprinted
    rw [hr, hr₁, hr₂]
    dsimp only
    rw [Session.present_run a input r hreport, Session.present_diagram, h₂.diagram_eq h,
      Session.present_report a₁ input' r ((h₁.reportOf_eq h r).symm ▸ hreport)]
    refine hdrawn.joins hc₁.files ?_
    show c₁.out ++ report = report
    rw [hc₁.out, String.empty_append]
  · obtain ⟨c, hr, hc⟩ := hprepare (a.has .verbose)
    obtain ⟨c₁, hr₁, hc₁⟩ := hprepare (a₁.has .verbose)
    obtain ⟨c₂, hr₂, hc₂⟩ := hprepare (a₂.has .verbose)
    rw [hr, hr₁, hr₂]
    exact .of_stop hc hc₁ hc₂

/-- **A command that is to print a report which is no text** ends there. -/
theorem command_unprinted (h : i.GivenBy cmd a) (htitle : .title ∈ cmd.flags)
    (hprints : cmd.prints) (hi : i.Unprintable L t) :
    Outcome.Unprinted t (.ofResult (Session.command L cmd a input { files := t })) := by
  obtain ⟨r, hreads, hhalf⟩ := hi.half
  have hreport := (h.narrow?_reportOf_eq_none_iff htitle r).mpr ⟨hi.untitled, hhalf⟩
  obtain ⟨c, hr⟩ := (h.exists_prepare_eq_ok_iff (a.has .verbose)).mpr hreads
  have hc : c.Untouched t := by
    have hsilent := Session.silent_prepare L a { files := t, verbose := a.has .verbose }
    rw [hr] at hsilent
    exact hsilent.untouched ⟨rfl, rfl⟩
  rw [Session.command_eq, Session.bind_eq, hr]
  dsimp only
  rw [Session.present_of_unprintable hprints hreport]
  exact ⟨hc.out, hc.files, rfl, rfl⟩

/-- **Words that ask for an invocation run the command or are refused**, by the invocation alone. -/
theorem Invocation.AskedBy.run_eq (L : Settings.Loader)
    (hformat : ∀ v, i.format = some v → v ∈ DiagramSettings.formats) {ws : List String} (h : i.AskedBy cmd ws) (t : FileTree) (input : CallGraph.Source) :
    (i.Passes t → ∃ a, i.GivenBy cmd a ∧
      run L (cmd.name :: ws) t input = .ofResult (Session.command L cmd a input { files := t })) ∧
    (¬ i.Passes t → ∃ err, run L (cmd.name :: ws) t input = ⟨2, none, "", err, t⟩) := by
  obtain ⟨a, hread, hgiven⟩ := h
  have hrequest := Request.read_command t cmd ws
  simp only [hread] at hrequest
  have hcheck := Invocation.check_eq_ok_iff (t := t) hformat hread hgiven
  constructor
  · intro hpasses
    simp only [hcheck.mpr hpasses] at hrequest
    exact ⟨a, hgiven, run_of_read hrequest input⟩
  · intro hfails
    cases hresult : a.check t with
    | ok u => exact absurd (hcheck.mp hresult) hfails
    | error e =>
        simp only [hresult] at hrequest
        exact ⟨_, run_of_read_error hrequest input⟩

/-- **`run` is `report` and then `diagram`**, and `report` alone if that cannot be printed. -/
theorem run_joins (L : Settings.Loader)
    (hformat : ∀ v, i.format = some v → v ∈ DiagramSettings.formats)
    {reportWords diagramWords runWords : List String} (hreport : i.AskedBy .report reportWords)
    (hdiagram : i.AskedBy .diagram diagramWords) (hrun : i.AskedBy .run runWords) (t : FileTree)
    (input input' : CallGraph.Source) :
    (¬ i.Unprintable L t →
      Outcome.Joins t (run L ("run" :: runWords) t input) (run L ("report" :: reportWords) t input')
        (run L ("diagram" :: diagramWords) t input)) ∧
    (i.Unprintable L t →
      Outcome.Unprinted t (run L ("run" :: runWords) t input) ∧
        Outcome.Unprinted t (run L ("report" :: reportWords) t input')) ∧
    ((run L ("run" :: runWords) t input).exitCode = 0 ↔
      (run L ("report" :: reportWords) t input').exitCode = 0 ∧
        (run L ("diagram" :: diagramWords) t input).exitCode = 0) := by
  have hjoins : ¬ i.Unprintable L t →
      Outcome.Joins t (run L (Command.run.name :: runWords) t input)
        (run L (Command.report.name :: reportWords) t input')
        (run L (Command.diagram.name :: diagramWords) t input) := by
    intro hprintable
    by_cases hpasses : i.Passes t
    · obtain ⟨a₁, h₁, hrun₁⟩ := (hreport.run_eq L hformat t input').1 hpasses
      obtain ⟨a₂, h₂, hrun₂⟩ := (hdiagram.run_eq L hformat t input).1 hpasses
      obtain ⟨a, h, hrun⟩ := (hrun.run_eq L hformat t input).1 hpasses
      rw [hrun₁, hrun₂, hrun]
      exact command_joins h₁ h₂ h hpasses hprintable
    · obtain ⟨err₁, hrun₁⟩ := (hreport.run_eq L hformat t input').2 hpasses
      obtain ⟨err₂, hrun₂⟩ := (hdiagram.run_eq L hformat t input).2 hpasses
      obtain ⟨err, hrun⟩ := (hrun.run_eq L hformat t input).2 hpasses
      rw [hrun₁, hrun₂, hrun]
      exact ⟨rfl, rfl, rfl, rfl, rfl, and_self_iff.symm⟩
  have hunprinted : i.Unprintable L t →
      Outcome.Unprinted t (run L (Command.run.name :: runWords) t input) ∧
        Outcome.Unprinted t (run L (Command.report.name :: reportWords) t input') := by
    intro hi
    obtain ⟨a₁, h₁, hrun₁⟩ := (hreport.run_eq L hformat t input').1 hi.passes
    obtain ⟨a, h, hrun⟩ := (hrun.run_eq L hformat t input).1 hi.passes
    rw [hrun₁, hrun]
    exact ⟨command_unprinted h (by decide) rfl hi, command_unprinted h₁ (by decide) rfl hi⟩
  refine ⟨hjoins, hunprinted, ?_⟩
  by_cases hi : i.Unprintable L t
  · obtain ⟨hboth, hfirst⟩ := hunprinted hi
    have hrun : (run L ("run" :: runWords) t input).exitCode = 1 := hboth.exitCode
    have hreport : (run L ("report" :: reportWords) t input').exitCode = 1 := hfirst.exitCode
    rw [hrun, hreport]
    exact ⟨nofun, fun h => nomatch h.1⟩
  · exact (hjoins hi).succeeds

/-- A titled report of a file and a drawing in DOT. -/
def audit : Invocation :=
  { files := ["a.go"], title := some "Audit", output := some "g.dot", format := some "dot" }

/-- A source file with a mitigation. -/
def auditedFiles : FileTree :=
  .ofFiles [] [("a.go", some
    "// ThreatSpec m for F\n// Mitigates web:app against xss with escaping\n".toUTF8.toList)]

/-- The audited file beside settings with half of a character for a title. -/
def halfTitledFiles : FileTree :=
  .ofFiles [] [("a.go", some
    "// ThreatSpec m for F\n// Mitigates web:app against xss with escaping\n".toUTF8.toList),
    ("threatspec.yaml", some "title: \"\\ud800\"\n".toUTF8.toList)]

/-- A drawing in DOT, and no title asked for. -/
def untitled : Invocation := { files := ["a.go"], format := some "dot" }

theorem unprintable_untitled : untitled.Unprintable .yaml halfTitledFiles := by
  have htitle : ((Settings.load .yaml halfTitledFiles none).2.toOption.bind Settings.title).any
      (·.any fun p => decide p.IsHalf) = true := by decide +kernel
  have hread : ∀ rebind, (Annotations.Reader.readFiles { rebind := rebind } halfTitledFiles
      ["a.go"]).toOption.isSome := by decide +kernel
  refine ⟨⟨nofun, List.cons_ne_nil _ _, by decide +kernel⟩, rfl, ?_⟩
  cases hload : (Settings.load .yaml halfTitledFiles none).2 with
  | error e =>
      rw [hload] at htitle
      cases htitle
  | ok s =>
      rw [hload] at htitle
      cases hfacts : Annotations.Reader.readFiles { rebind := s.reader.rebindAfterBlock }
          halfTitledFiles ["a.go"] with
      | error e =>
          have hsome := hread s.reader.rebindAfterBlock
          rw [hfacts] at hsome
          cases hsome
      | ok r =>
          refine ⟨(s, r.1), ⟨hload, r.2, hfacts⟩, ?_⟩
          simpa [Except.toOption, Option.any_eq_true, List.any_eq_true] using htitle

/-- The audit in other words for each command, and a report that cannot be printed. -/
theorem run_joins_audit :
    (run .yaml ["run", "-tAudit", "a.go", "--output", "g.dot", "-vfdot"] auditedFiles
      .absent).exitCode = 0 ∧
    Outcome.Joins auditedFiles
      (run .yaml ["run", "-tAudit", "a.go", "--output", "g.dot", "-vfdot"] auditedFiles .absent)
      (run .yaml ["report", "--title=Audit", "a.go"] auditedFiles .absent)
      (run .yaml ["diagram", "-f", "dot", "-o", "g.dot", "--", "a.go"] auditedFiles .absent) ∧
    Outcome.Unprinted halfTitledFiles
      (run .yaml ["run", "a.go", "-f", "dot"] halfTitledFiles .absent) := by
  have hformat : ∀ v, audit.format = some v → v ∈ DiagramSettings.formats := by
    rintro v ⟨⟩
    decide
  have hreport : audit.AskedBy .report ["--title=Audit", "a.go"] :=
    ⟨⟨[(.title, "Audit")], ["a.go"]⟩, by rfl, rfl, by decide⟩
  have hdiagram : audit.AskedBy .diagram ["-f", "dot", "-o", "g.dot", "--", "a.go"] :=
    ⟨⟨[(.format, "dot"), (.output, "g.dot")], ["a.go"]⟩, by rfl, rfl, by decide⟩
  have hrun : audit.AskedBy .run ["-tAudit", "a.go", "--output", "g.dot", "-vfdot"] :=
    ⟨⟨[(.title, "Audit"), (.output, "g.dot"), (.verbose, ""), (.format, "dot")], ["a.go"]⟩, by rfl,
      rfl, by decide⟩
  -- A title is given.
  have hprintable : ¬ audit.Unprintable .yaml auditedFiles := fun h => nomatch h.untitled
  have hformat' : ∀ v, untitled.format = some v → v ∈ DiagramSettings.formats := by
    rintro v ⟨⟩
    decide
  have hreport' : untitled.AskedBy .report ["a.go"] := ⟨⟨[], ["a.go"]⟩, by rfl, rfl, by decide⟩
  have hdiagram' : untitled.AskedBy .diagram ["a.go", "-f", "dot"] :=
    ⟨⟨[(.format, "dot")], ["a.go"]⟩, by rfl, rfl, by decide⟩
  have hrun' : untitled.AskedBy .run ["a.go", "-f", "dot"] :=
    ⟨⟨[(.format, "dot")], ["a.go"]⟩, by rfl, rfl, by decide⟩
  refine ⟨by decide +kernel, ?_, ?_⟩
  · exact (run_joins .yaml hformat hreport hdiagram hrun auditedFiles .absent .absent).1 hprintable
  · exact ((run_joins .yaml hformat' hreport' hdiagram' hrun' halfTitledFiles .absent .absent).2.1
      unprintable_untitled).1

/-- Under half of a character the report is not printed, and `run` does not come to the diagram. -/
theorem run_does_not_join :
    (run .yaml ["report", "a.go"] halfTitledFiles .absent).failure = some .unprintable ∧
    (run .yaml ["run", "a.go", "-f", "dot"] halfTitledFiles .absent).out = "" ∧
    (run .yaml ["diagram", "a.go", "-f", "dot"] halfTitledFiles .absent).out ≠ "" ∧
    ¬ Outcome.Joins halfTitledFiles
      (run .yaml ["run", "a.go", "-f", "dot"] halfTitledFiles .absent)
      (run .yaml ["report", "a.go"] halfTitledFiles .absent)
      (run .yaml ["diagram", "a.go", "-f", "dot"] halfTitledFiles .absent) := by
  have hreport : (run .yaml ["report", "a.go"] halfTitledFiles .absent).failure =
      some .unprintable := by decide +kernel
  have hrun : (run .yaml ["run", "a.go", "-f", "dot"] halfTitledFiles .absent).out = "" := by
    decide +kernel
  have hdiagram : (run .yaml ["diagram", "a.go", "-f", "dot"] halfTitledFiles .absent).out ≠ "" := by
    decide +kernel
  refine ⟨hreport, hrun, hdiagram, fun hjoins => hdiagram ?_⟩
  have hout := hjoins.out
  rw [hrun] at hout
  exact (String.append_eq_empty_iff.mp hout.symm).2

end ThreatModel.CommandLine
