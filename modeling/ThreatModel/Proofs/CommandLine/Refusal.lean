import ThreatModel.Proofs.CommandLine.Steps
import ThreatModel.Yaml.Loader

/-!
# Refusal — sessions with settings that cannot be used

Every command reads its settings first.  If they cannot be used the session ends there: its exit
code is 1, its output is empty and no file is touched, whichever command it is and whatever its
other arguments are (`run_of_load_error`).  Whether the session also says so depends on the file
(`Settings.load_unreported_iff`): of bytes that are not UTF-8, of a mapping with a key at its top
that is no text, and of what the loader breaks down over, nothing is reported and the session has
no answer.  This holds with any loader; files of the three kinds are shown for the one of YAML.
-/

namespace ThreatModel.CommandLine

variable {L : Settings.Loader} {t : FileTree} {words : List String} {cmd : Command} {a : Arguments}
  {e : SettingsError}

/-- **A session stops at settings that it cannot use.** -/
theorem run_of_load_error (hread : Request.read t words = .ok (.command cmd a))
    (hload : (Settings.load L t (a.value? .config)).2 = .error e) (input : CallGraph.Source) :
    run L words t input =
      { exitCode := 1
        failure := if e.isReported then none else some (.settings e)
        out := ""
        err := (if a.has .verbose then
            String.join ((Settings.load L t (a.value? .config)).1.map Event.line) else "") ++
          Session.settingsReport e
        files := t } := by
  have hload' : Settings.load L t (a.value? .config) =
      ((Settings.load L t (a.value? .config)).1, .error e) := by rw [← hload]
  rw [run_of_read hread, Session.command_of_load_error { files := t } hload', Console.logged,
    Console.told, Console.told, Session.settingsStop]
  simp only [String.empty_append]
  cases e.isReported <;> rfl

/-- **Settings that cannot be used end a session, and are reported but for three kinds of files**:
those of `Unanswered`.  Bytes that are not UTF-8 are among what cannot be used. -/
theorem refuses_settings (L : Settings.Loader) (t : FileTree) :
    (∀ path? e, (Settings.load L t path?).2 = .error e ∧ e.isReported = false ↔
      ∃ bytes, Settings.content? t path? = some bytes ∧ L.Unanswered bytes e) ∧
    (∀ path? bytes, Settings.content? t path? = some bytes → Text.decode? bytes = none →
      ∃ e, (Settings.load L t path?).2 = .error e) ∧
    ∀ words input cmd a e, Request.read t words = .ok (.command cmd a) →
      (Settings.load L t (a.value? .config)).2 = .error e →
      run L words t input =
        { exitCode := 1
          failure := if e.isReported then none else some (.settings e)
          out := ""
          err := (if a.has .verbose then
              String.join ((Settings.load L t (a.value? .config)).1.map Event.line) else "") ++
            if e.isReported then "Invalid configuration: " ++ e.message ++ "\n" else ""
          files := t } := by
  refine ⟨fun path? e => Settings.load_unreported_iff, ?_, ?_⟩
  · intro path? bytes hbytes htext
    exact Settings.exists_error_of_decode? hbytes htext
  · intro words input cmd a e hread hload
    rw [← Session.settingsReport]
    exact run_of_load_error hread hload input

/-- A source file, and settings in the default file. -/
def withSettings (bytes : List UInt8) : FileTree :=
  .ofFiles [] [("a.go", some []), ("threatspec.yaml", some bytes)]

/-- The error that settings end in. -/
def errorOf? (result : Except SettingsError Settings) : Option SettingsError :=
  match result with
  | .error e => some e
  | .ok _    => none

theorem eq_error_of_errorOf? {result : Except SettingsError Settings} (h : errorOf? result = some e) :
    result = .error e := by
  cases result with
  | error e' => rw [Option.some.inj h]
  | ok s => cases h

/-- Settings that start a list and do not end it are reported. -/
theorem refuses_settings_open_list :
    run .yaml ["report", "a.go"] (withSettings "[".toUTF8.toList) .absent =
      ⟨1, none, "", "Invalid configuration: YAML parse error in threatspec.yaml\n",
        withSettings "[".toUTF8.toList⟩ := by
  have hload : (Settings.load .yaml (withSettings "[".toUTF8.toList) none).2 =
      .error (.malformed "threatspec.yaml") := eq_error_of_errorOf? (by decide +kernel)
  exact (refuses_settings .yaml (withSettings "[".toUTF8.toList)).2.2 ["report", "a.go"] .absent
    .report { files := ["a.go"] } (.malformed "threatspec.yaml") rfl hload

/-- A report beside settings of which nothing is reported. -/
theorem run_of_unreported {bytes : List UInt8}
    (hload : (Settings.load L (withSettings bytes) none).2 = .error e)
    (hreported : e.isReported = false) : run L ["report", "a.go"] (withSettings bytes) .absent =
      ⟨1, some (.settings e), "", "", withSettings bytes⟩ := by
  rw [run_of_load_error (a := { files := ["a.go"] }) rfl hload .absent, Session.settingsReport,
    hreported]
  rfl

/-- Of a byte that is no UTF-8, of a number as a key, and of a day that there is not, nothing is
reported. -/
theorem not_refused_unanswered :
    (run .yaml ["report", "a.go"] (withSettings [0xff]) .absent =
      ⟨1, some (.settings .notText), "", "", withSettings [0xff]⟩) ∧
    (run .yaml ["report", "a.go"] (withSettings "1: x".toUTF8.toList) .absent =
      ⟨1, some (.settings .keyNotText), "", "", withSettings "1: x".toUTF8.toList⟩) ∧
    run .yaml ["report", "a.go"] (withSettings "title: 2001-99-99".toUTF8.toList) .absent =
      ⟨1, some (.settings (.breakdown .value)), "", "",
        withSettings "title: 2001-99-99".toUTF8.toList⟩ :=
  ⟨run_of_unreported (eq_error_of_errorOf? (by decide +kernel)) rfl,
    run_of_unreported (eq_error_of_errorOf? (by decide +kernel)) rfl,
    run_of_unreported (eq_error_of_errorOf? (by decide +kernel)) rfl⟩

end ThreatModel.CommandLine
