import ThreatModel.CommandLine.Arguments
import ThreatModel.Settings.File
import ThreatModel.Text.Quoted

/-!
# Commands — what a command line asks for

The first word is a command: `report`, `diagram` or `run`, which does both.  Its options and files are checked in the order
in which they are given, the files last.

* `Request.read`: what the words ask for.
* `UsageError.text`: what is printed if they ask for nothing.
-/

namespace ThreatModel.CommandLine

/-- The commands. -/
inductive Command where
  | report
  | diagram
  | run
deriving DecidableEq, Repr

namespace Command

/-- All commands. -/
def all : List Command := [report, diagram, run]

/-- The word for a command. -/
def name : Command → String
  | report  => "report"
  | diagram => "diagram"
  | run     => "run"

/-- The options of a command. -/
def flags : Command → List Flag
  | report  => [.config, .title, .verbose]
  | diagram => [.config, .output, .format, .verbose]
  | run     => [.config, .title, .output, .format, .verbose]

/-- The command prints a report. -/
def prints : Command → Bool
  | diagram => false
  | _       => true

/-- The command draws a diagram. -/
def draws : Command → Bool
  | report => false
  | _      => true

/-- The command of a word. -/
def ofName? (word : String) : Option Command := all.find? (·.name = word)

end Command

/-- What a bad value was given for. -/
inductive Parameter where
  | files
  | flag (f : Flag)
deriving DecidableEq, Repr

/-- The parameter as shown to the user. -/
def Parameter.shown : Parameter → String
  | files  => "'FILES...'"
  | flag f => f.names

/-- What is wrong with a command line. -/
inductive UsageFault where
  | words (e : WordError)
  | missingCommand
  | noSuchCommand (name : String)
  | missingFiles
  | noFile (parameter : Parameter) (path : String)
  | isDirectory (parameter : Parameter) (path : String)
  | notListed (parameter : Parameter) (value : String) (choices : List String)
deriving DecidableEq, Repr

/-- What is printed of a fault. -/
def UsageFault.message : UsageFault → String
  | words (.unknown option)      => "No such option " ++ Text.quoted option ++ "."
  | words (.needsValue option)   => "Option " ++ Text.quoted option ++ " requires an argument."
  | words (.takesNoValue option) => "Option " ++ Text.quoted option ++ " does not take a value."
  | missingCommand               => "Missing command."
  | noSuchCommand name           => "No such command " ++ Text.quoted name ++ "."
  | missingFiles                 => "Missing argument 'FILES...'."
  | noFile p path                => "Invalid value for " ++ p.shown ++ ": File " ++ Text.quoted path ++ " does not exist."
  | isDirectory p path           => "Invalid value for " ++ p.shown ++ ": File " ++ Text.quoted path ++ " is a directory."
  | notListed p value choices    =>
    "Invalid value for " ++ p.shown ++ ": " ++ Text.quoted value ++ " is not one of " ++
      String.intercalate ", " (choices.map Text.quoted) ++ "."

/-- The fault is shown below the usage of its command. -/
def UsageFault.showsUsage : UsageFault → Bool
  | words (.needsValue _)   => false
  | words (.takesNoValue _) => false
  | _                       => true

/-- A fault and the command it was made in, if there is one. -/
structure UsageError where
  command : Option Command
  fault : UsageFault
deriving DecidableEq, Repr

/-- How commands are used. -/
def usage : Option Command → String
  | none   =>
    "Usage: threatspec [OPTIONS] COMMAND [ARGS]...\nTry 'threatspec --help' for help.\n\n"
  | some c =>
    "Usage: threatspec " ++ c.name ++ " [OPTIONS] FILES...\nTry 'threatspec " ++ c.name ++ " --help' for help.\n\n"

/-- All that is printed of an error. -/
def UsageError.text (e : UsageError) : String :=
  (if e.fault.showsUsage then usage e.command else "") ++ "Error: " ++ e.fault.message ++ "\n"

/-- What a command line asks for. -/
inductive Request where
  /-- The version of the program. -/
  | version
  /-- A command on files. -/
  | command (c : Command) (a : Arguments)
deriving DecidableEq, Repr

/-- The words before the command: nothing, or a wish for the version. -/
inductive Opening where
  | version
  | words (ws : List String)
deriving DecidableEq, Repr

/-- A path must lead to a file. -/
def checkFile (t : FileTree) (p : Parameter) (path : String) : Except UsageFault Unit :=
  match t.lookup path with
  | .ok (.file _)   => .ok ()
  | .ok .directory  => .error (.isDirectory p path)
  | .error _        => .error (.noFile p path)

namespace Arguments

/-- The value that counts for a given option can be used. -/
def checkFlag (t : FileTree) (a : Arguments) (f : Flag) : Except UsageFault Unit :=
  match f, a.value? f with
  | .config, some path => checkFile t (.flag .config) path
  | .format, some v    =>
    if v ∈ DiagramSettings.formats then .ok () else .error (.notListed (.flag .format) v DiagramSettings.formats)
  | _, _               => .ok ()

/-- All options and files can be used. -/
def check (t : FileTree) (a : Arguments) : Except UsageFault Unit := do
  a.given.forM fun s => checkFlag t a s.1
  if a.files = [] then throw .missingFiles
  a.files.forM (checkFile t .files)

end Arguments

namespace Request

/-- Reads the words before a command: options come first there, and `--version` is the only one. -/
def opening (versionAsked : Bool) : List String → Except WordError Opening
  | []             => .ok (if versionAsked then .version else .words [])
  | word :: others =>
    if word = "--" then .ok (if versionAsked then .version else .words others)
    else if isOption word.toList then
      let (name, value) := cutAtEquals word.toList
      let name := String.ofList name
      if name = "--version" then
        if value.isSome then .error (.takesNoValue name) else opening true others
      else
        match word.toList with
        | '-' :: '-' :: _ => .error (.unknown name)
        | _               => .error (.unknown (String.ofList (word.toList.take 2)))
    else .ok (if versionAsked then .version else .words (word :: others))

/-- What words after the opening ask for. -/
def ofWords (t : FileTree) : List String → Except UsageError Request
  | []            => .error ⟨none, .missingCommand⟩
  | word :: words =>
    match Command.ofName? word with
    | some c =>
      match Arguments.read c.flags words with
      | .error e => .error ⟨some c, .words e⟩
      | .ok a    =>
        match a.check t with
        | .error e => .error ⟨some c, e⟩
        | .ok ()   => .ok (.command c a)
    | none =>
      match opening false (word :: words) with
      | .error e    => .error ⟨none, .words e⟩
      | .ok .version => .ok .version
      | .ok _       => .error ⟨none, .noSuchCommand word⟩

/-- What a command line asks for. -/
def read (t : FileTree) (words : List String) : Except UsageError Request :=
  match opening false words with
  | .error e         => .error ⟨none, .words e⟩
  | .ok .version     => .ok .version
  | .ok (.words ws)  => ofWords t ws

/-- The command line asks for a diagram. -/
def draws (t : FileTree) (words : List String) : Bool :=
  match read t words with
  | .ok (.command c _) => c.draws
  | _                  => false

/-- The paths that a command line may lead to: the settings that are read unasked, its files, and the values of options. -/
def paths (words : List String) : List String :=
  match opening false words with
  | .ok (.words (word :: words)) =>
    match Command.ofName? word with
    | some c =>
      match Arguments.read c.flags words with
      | .ok a    => Settings.defaultFile :: a.files ++ a.given.map Prod.snd
      | .error _ => []
    | none => []
  | _ => []

end Request

end ThreatModel.CommandLine
