import ThreatModel.CommandLine.Session
import ThreatModel.Proofs.Settings.Loading

/-!
# Steps — what a session does to its console

A step of a session takes a console and gives one back, with a value or with the reason to stop.
Each step is one equation here, by what it is applied to: printing and logging change one stream,
the settings either come out of the file or stop the session (`settings_eq`), and the facts do the
same with the sources.  A command reads both before it prints anything (`command_eq`); what the
words ask for is decided before that (`run_of_read`).  A text with half of a character in it stops
the session that is to print it (`print_of_narrow?`).
-/

namespace ThreatModel.CommandLine

namespace Console

/-- The console with a text on its error stream. -/
def told (c : Console) (text : String) : Console := { c with err := c.err ++ text }

/-- The console with a text on its output. -/
def printed (c : Console) (text : String) : Console := { c with out := c.out ++ text }

/-- The console with events logged. -/
def logged (c : Console) (es : List Event) : Console :=
  c.told (if c.verbose then String.join (es.map Event.line) else "")

@[simp] theorem told_empty (c : Console) : c.told "" = c := by rw [told, String.append_empty]

end Console

namespace Session

variable {α β : Type}

theorem bind_eq (x : Session α) (k : α → Session β) (c : Console) : (x >>= k) c =
    match x c with
    | .ok a c'    => k a c'
    | .error e c' => .error e c' := by
  show EStateM.bind x k c = _
  rw [EStateM.bind]
  cases x c <;> rfl

theorem get_bind_eq (k : Console → Session β) (c : Console) : (get >>= k) c = k c c := rfl

/-- A text is printed whole or not at all. -/
theorem print_of_narrow? (text : Text.Wide) (c : Console) : print text c =
    match Text.narrow? text with
    | some s => .ok () (c.printed s)
    | none   => .error (.failed .unprintable) c := by
  rw [print]
  cases Text.narrow? text <;> rfl

theorem printError_eq (text : String) (c : Console) : printError text c = .ok () (c.told text) :=
  rfl

theorem log_eq (es : List Event) (c : Console) : log es c = .ok () (c.logged es) := by
  show (if c.verbose then printError (String.join (es.map Event.line)) else pure ()) c = _
  rw [Console.logged]
  cases c.verbose with
  | true => rfl
  | false =>
      rw [if_neg Bool.false_ne_true, if_neg Bool.false_ne_true, Console.told_empty]
      rfl

theorem onFiles_eq (task : FileTask α) (c : Console) : onFiles task c =
    match task.run c.files with
    | .ok a t    => .ok a { c with files := t }
    | .error e t => .error (.failed (.file e)) { c with files := t } := by
  rw [onFiles, get_bind_eq]
  cases task.run c.files <;> rfl

/-! ### Settings and facts -/

/-- How a session stops at settings that it cannot use. -/
def settingsStop (e : SettingsError) : Stop :=
  if e.isReported then .exit 1 else .failed (.settings e)

/-- What it says of them. -/
def settingsReport (e : SettingsError) : String :=
  if e.isReported then "Invalid configuration: " ++ e.message ++ "\n" else ""

/-- **The settings of the file, or a stop.**  Nothing is printed on the output. -/
theorem settings_eq (L : Settings.Loader) (a : Arguments) (c : Console) : settings L a c =
    match Settings.load L c.files (a.value? .config) with
    | (es, .ok s)    => .ok s (c.logged es)
    | (es, .error e) => .error (settingsStop e) ((c.logged es).told (settingsReport e)) := by
  rw [settings, get_bind_eq]
  rcases Settings.load L c.files (a.value? .config) with ⟨es, result⟩
  dsimp only
  rw [bind_eq, log_eq]
  cases result with
  | ok s => rfl
  | error e =>
      cases e with
      | noFile path => rfl
      | malformed path => rfl
      | notMapping path => rfl
      | invalid path issues => rfl
      | notText => exact congrArg (EStateM.Result.error _) (Console.told_empty _).symm
      | keyNotText => exact congrArg (EStateM.Result.error _) (Console.told_empty _).symm
      | breakdown b => exact congrArg (EStateM.Result.error _) (Console.told_empty _).symm

/-- The facts of the files, or a stop. -/
theorem facts_eq (a : Arguments) (s : Settings) (c : Console) : facts a s c =
    match Annotations.Reader.readFiles { rebind := s.reader.rebindAfterBlock } c.files a.files with
    | .ok (f, es) => .ok f (c.logged es)
    | .error e    =>
      .error (.exit 1) (c.told ("Failed to read source: " ++ e.message ++ "\n")) := by
  rw [facts, get_bind_eq]
  cases Annotations.Reader.readFiles { rebind := s.reader.rebindAfterBlock } c.files a.files with
  | ok r =>
      dsimp only
      rw [bind_eq, log_eq]
      rfl
  | error e => rfl

/-! ### Commands -/

/-- What a command reads before it does anything: settings, and the facts of the sources. -/
def prepare (L : Settings.Loader) (a : Arguments) : Session (Settings × Facts) := do
  let s ← settings L a
  let f ← facts a s
  return (s, f)

/-- **What preparing comes to, when it does.** -/
theorem exists_prepare_eq_ok_iff {L : Settings.Loader} {a : Arguments} {c : Console}
    {r : Settings × Facts} : (∃ c', prepare L a c = .ok r c') ↔
      (Settings.load L c.files (a.value? .config)).2 = .ok r.1 ∧
        ∃ es, Annotations.Reader.readFiles { rebind := r.1.reader.rebindAfterBlock } c.files a.files =
          .ok (r.2, es) := by
  obtain ⟨s, f⟩ := r
  rw [prepare, bind_eq, settings_eq]
  rcases Settings.load L c.files (a.value? .config) with ⟨es, e | s'⟩
  · exact ⟨nofun, fun h => nomatch h.1⟩
  · dsimp only
    rw [bind_eq, facts_eq]
    constructor
    · rintro ⟨c', h⟩
      split at h
      · rename_i f' c'' hfacts
        cases h
        split at hfacts
        · rename_i f' es' hread
          cases hfacts
          exact ⟨rfl, es', hread⟩
        · cases hfacts
      · cases h
    · rintro ⟨hs, es', hread⟩
      cases hs
      exact ⟨_, by rw [show (c.logged es).files = c.files from rfl, hread]; rfl⟩

/-- The title of the report: the given one, or else that of the settings. -/
def titleOf (a : Arguments) (s : Settings) : Option Text.Wide :=
  ((Text.given? (a.value? .title)).map Text.wide).or s.title

/-- The report on what was read. -/
def reportOf (a : Arguments) (r : Settings × Facts) : Text.Wide :=
  Report.wideOfFacts r.2 (titleOf a r.1)

/-- What a command does with it. -/
def present (cmd : Command) (a : Arguments) (input : CallGraph.Source) (r : Settings × Facts) :
    Session Unit := do
  if cmd.prints then print (reportOf a r)
  if cmd.draws then diagram a r.1 r.2 input

/-- **A command prepares and presents.** -/
theorem command_eq (L : Settings.Loader) (cmd : Command) (a : Arguments) (input : CallGraph.Source)
    (c : Console) : command L cmd a input c =
      (prepare L a >>= present cmd a input) { c with verbose := a.has .verbose } := by
  rw [prepare]
  simp only [bind_assoc, pure_bind]
  rfl

/-- Settings that cannot be used stop a command before anything else. -/
theorem command_of_load_error (c : Console) {L : Settings.Loader} {a : Arguments} {es : List Event}
    {e : SettingsError} (h : Settings.load L c.files (a.value? .config) = (es, .error e))
    (cmd : Command) (input : CallGraph.Source) : command L cmd a input c =
      .error (settingsStop e)
        ((({ c with verbose := a.has .verbose } : Console).logged es).told (settingsReport e)) := by
  rw [command_eq, prepare, bind_assoc, bind_eq, settings_eq]
  simp only [h]

end Session

/-! ### Whole sessions -/

/-- The outcome at the end of a session. -/
def Outcome.ofResult : EStateM.Result Stop Console Unit → Outcome
  | .ok _ c               => ⟨0, none, c.out, c.err, c.files⟩
  | .error (.exit code) c => ⟨code, none, c.out, c.err, c.files⟩
  | .error (.failed f) c  => ⟨1, some f, c.out, c.err, c.files⟩

variable {L : Settings.Loader} {t : FileTree} {words : List String} {input : CallGraph.Source}

theorem run_of_read {cmd : Command} {a : Arguments}
    (h : Request.read t words = .ok (.command cmd a)) (input : CallGraph.Source) :
    run L words t input = Outcome.ofResult (Session.command L cmd a input { files := t }) := by
  have hsession : session L words input { files := t } =
      Session.command L cmd a input { files := t } := by
    rw [session, Session.get_bind_eq]
    simp only [h]
  rw [← hsession]
  rfl

/-- Words that cannot be read are told from the usage; nothing else happens. -/
theorem run_of_read_error {e : UsageError} (h : Request.read t words = .error e)
    (input : CallGraph.Source) : run L words t input = ⟨2, none, "", e.text, t⟩ := by
  have hsession : session L words input { files := t } =
      .error (.exit 2) { files := t, err := e.text } := by
    rw [session, Session.get_bind_eq]
    simp only [h]
    rw [Session.bind_eq, Session.printError_eq, Console.told, String.empty_append]
    rfl
  rw [show run L words t input = Outcome.ofResult (session L words input { files := t }) from rfl,
    hsession]
  rfl

/-- After the word of a command, the other words are its arguments. -/
theorem Request.read_command (t : FileTree) (cmd : Command) (ws : List String) :
    Request.read t (cmd.name :: ws) =
      match Arguments.read cmd.flags ws with
      | .error e => .error ⟨some cmd, .words e⟩
      | .ok a    =>
        match a.check t with
        | .error e => .error ⟨some cmd, e⟩
        | .ok ()   => .ok (.command cmd a) := by
  cases cmd <;> rfl

end ThreatModel.CommandLine
