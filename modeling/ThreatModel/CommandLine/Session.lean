import ThreatModel.Annotations.Files
import ThreatModel.CommandLine.Command
import ThreatModel.Diagram.Drawing
import ThreatModel.Report.Basic
import ThreatModel.Settings.File

/-!
# Sessions — running a command

A session starts with a command line, a file tree and a call graph on the standard input, and with a loader for its
settings.  It prints to two streams and may write files.  It ends well, with an exit code, or fails where it has no answer.

* `run`: the outcome of a session.
* `Outcome`: exit code, streams and files.
-/

namespace ThreatModel.CommandLine

/-- Why a session has no answer. -/
inductive Failure where
  | settings (e : SettingsError)
  /-- Half of a character stands in a text that is to be printed. -/
  | unprintable
  /-- The standard input is not UTF-8. -/
  | inputNotText
  | callGraph (e : NumberTooLong)
  | component (e : MissingKey)
  | file (e : FileError)
deriving DecidableEq, Repr

/-- What is reported of a failure. -/
def Failure.message : Failure → String
  | settings e   => e.message
  | unprintable  => "Half of a character cannot be printed"
  | inputNotText => "The standard input is not valid UTF-8"
  | callGraph e  => e.message
  | component e  => e.message
  | file e       => e.message

/-- How a session ends before its end. -/
inductive Stop where
  | exit (code : Nat)
  | failed (f : Failure)
deriving DecidableEq, Repr

/-- What a session has printed, and the files there are. -/
structure Console where
  files : FileTree
  out : String := ""
  err : String := ""
  /-- Events are printed. -/
  verbose : Bool := false

/-- A step of a session; what it did before it stopped stays done. -/
abbrev Session : Type → Type := EStateM Stop Console

namespace Session

/-- Prints, unless half of a character stands in the text. -/
def print (text : Text.Wide) : Session Unit :=
  match Text.narrow? text with
  | some s => modify fun c => { c with out := c.out ++ s }
  | none   => throw (.failed .unprintable)

/-- Prints to the error stream. -/
def printError (text : String) : Session Unit := modify fun c => { c with err := c.err ++ text }

/-- Prints events, if the session is verbose. -/
def log (es : List Event) : Session Unit := do
  if (← get).verbose then printError (String.join (es.map Event.line))

/-- Works on the files. -/
def onFiles {α : Type} (task : FileTask α) : Session α := do
  let c ← get
  match task.run c.files with
  | .ok a t    =>
    set { c with files := t }
    return a
  | .error e t =>
    set { c with files := t }
    throw (.failed (.file e))

/-- The settings; most files that cannot be used are reported. -/
def settings (loader : Settings.Loader) (a : Arguments) : Session Settings := do
  let (events, result) := Settings.load loader (← get).files (a.value? .config)
  log events
  match result with
  | .ok s                 => return s
  | .error .notText       => throw (.failed (.settings .notText))
  | .error .keyNotText    => throw (.failed (.settings .keyNotText))
  | .error (.breakdown b) => throw (.failed (.settings (.breakdown b)))
  | .error e              =>
    printError ("Invalid configuration: " ++ e.message ++ "\n")
    throw (.exit 1)

/-- The facts of the files. -/
def facts (a : Arguments) (s : Settings) : Session Facts := do
  match Annotations.Reader.readFiles { rebind := s.reader.rebindAfterBlock } (← get).files a.files with
  | .ok (f, events) =>
    log events
    return f
  | .error e =>
    printError ("Failed to read source: " ++ e.message ++ "\n")
    throw (.exit 1)

/-- The call graph of the standard input. -/
def callGraph (input : CallGraph.Source) : Session CallGraph := do
  match CallGraph.ofSource input with
  | .ok r =>
    log r.events
    return r.graph
  | .error .notText     => throw (.failed .inputNotText)
  | .error (.refused e) =>
    log e.events
    throw (.failed (.callGraph e.cause))

/-- The component graph of the facts. -/
def componentGraph (f : Facts) (g : CallGraph) (s : GraphSettings) : Session ComponentGraph := do
  match ComponentGraph.build f g s.clampOtherCount with
  | .ok (graph, events) =>
    log events
    return graph
  | .error e => throw (.failed (.component e))

/-- Tells where the diagram is. -/
def announce (path : String) : Session Unit := printError ("Diagram generated: " ++ path ++ "\n")

/-- Draws the diagram.  One in DOT is written to the output path, or printed if none is given. -/
def diagram (a : Arguments) (s : Settings) (f : Facts) (input : CallGraph.Source) : Session Unit := do
  let calls ← callGraph input
  let graph ← componentGraph f calls s.graph
  let format := s.diagram.formatOr (a.value? .format)
  if format = "dot" then
    let dot := Diagram.source graph s.diagram
    match Text.given? (a.value? .output) with
    | some path =>
      onFiles (FileTree.write path (Diagram.bytesOf dot))
      announce path
    | none => print (Text.wide (dot ++ "\n"))
  else
    announce (← onFiles (Diagram.draw graph s.diagram (a.value? .output) (some format)))

/-- Runs a command. -/
def command (loader : Settings.Loader) (c : Command) (a : Arguments) (input : CallGraph.Source) : Session Unit := do
  modify fun console => { console with verbose := a.has .verbose }
  let s ← settings loader a
  let f ← facts a s
  if c.prints then
    let title := ((Text.given? (a.value? .title)).map Text.wide).or s.title
    print (Report.wideOfFacts f title)
  if c.draws then diagram a s f input

end Session

/-- The version line. -/
def versionLine : String := "threatspec, version 1.0.0\n"

/-- A whole session. -/
def session (loader : Settings.Loader) (words : List String) (input : CallGraph.Source) : Session Unit := do
  match Request.read (← get).files words with
  | .error e =>
    Session.printError e.text
    throw (.exit 2)
  | .ok .version       => Session.print (Text.wide versionLine)
  | .ok (.command c a) => Session.command loader c a input

/-- How a session ended. -/
structure Outcome where
  exitCode : Nat
  failure : Option Failure := none
  out : String
  err : String
  files : FileTree

/-- The outcome of a session. -/
def run (loader : Settings.Loader) (words : List String) (files : FileTree) (input : CallGraph.Source) : Outcome :=
  match (session loader words input).run { files := files } with
  | .ok _ c                => ⟨0, none, c.out, c.err, c.files⟩
  | .error (.exit code) c  => ⟨code, none, c.out, c.err, c.files⟩
  | .error (.failed f) c   => ⟨1, some f, c.out, c.err, c.files⟩

end ThreatModel.CommandLine
