import ThreatModel.Event
import ThreatModel.FileTree.Basic
import ThreatModel.Settings.Loader

/-!
# Settings from a file

Settings are read from one file: one that is named, or else `threatspec.yaml` in the working directory if there is one.  A
loader gives its value and then the settings; a file without content sets nothing.

* `Settings.load`: the settings, and what was reported while they were read.
* `SettingsError.message`: what is reported of a file that cannot be used.
-/

namespace ThreatModel

/-- Why a file gives no settings. -/
inductive SettingsError where
  | noFile (path : String)
  | malformed (path : String)
  | notMapping (path : String)
  | invalid (path : String) (issues : List Issue)
  /-- The file is not written in UTF-8. -/
  | notText
  /-- A key at the top of the file is no text. -/
  | keyNotText
  /-- The loader broke down. -/
  | breakdown (b : Breakdown)
deriving DecidableEq, Repr

/-- What is reported of a file that gives no settings. -/
def SettingsError.message : SettingsError → String
  | noFile path     => "Configuration file does not exist: " ++ path
  | malformed path  => "YAML parse error in " ++ path
  | notMapping path => path ++ " must contain a mapping at the top level"
  | invalid path _  => "Configuration validation error in " ++ path
  | notText         => "The configuration is not valid UTF-8"
  | keyNotText      => "Keys at the top of the configuration should be strings"
  | breakdown b     => b.message

namespace Settings

/-- The file that is read if none is named. -/
def defaultFile : String := "threatspec.yaml"

variable (loader : Loader)

/-- The settings that the entries at the top of a file give; their keys must be texts. -/
def ofTop (path : String) (entries : List (Value × Value)) : Except SettingsError Settings :=
  if entries.all fun e => e.1.text?.isSome then
    match loader.settings entries with
    | .ok s                 => .ok s
    | .error (.invalid is)  => .error (.invalid path is)
    | .error (.breakdown b) => .error (.breakdown b)
  else .error .keyNotText

/-- The settings that the value of a file gives. -/
def ofDocument (path : String) : Option Value → Except SettingsError Settings
  | none                => .ok {}
  | some .null          => .ok {}
  | some (.map entries) => ofTop loader path entries
  | some _              => .error (.notMapping path)

/-- The settings that the bytes of a file give. -/
def ofBytes (path : String) (bytes : List UInt8) : Except SettingsError Settings :=
  match loader.document bytes with
  | .ok doc               => ofDocument loader path doc
  | .error .malformed     => .error (.malformed path)
  | .error .notText       => .error .notText
  | .error (.breakdown b) => .error (.breakdown b)

/-- The settings of a named file. -/
def loadFile (t : FileTree) (path : String) : List Event × Except SettingsError Settings :=
  let path := Path.normal path
  match t.read path with
  | .error _  => ([], .error (.noFile path))
  | .ok bytes => ([.loadingConfiguration path], ofBytes loader path bytes)

/-- The settings of the named file, or else of the default file if it is there, or else the default settings. -/
def load (t : FileTree) : Option String → List Event × Except SettingsError Settings
  | some path => loadFile loader t path
  | none      => if t.isFile defaultFile then loadFile loader t defaultFile else ([], .ok {})

end Settings

end ThreatModel
