import ThreatModel.Settings.Basic
import ThreatModel.Settings.Issue
import ThreatModel.Settings.Value
import ThreatModel.Text.Utf8

/-!
# Loaders — how a configuration file is understood

The format of configuration files and the rules for their entries are not part of this library: a `Loader` brings them.  It
reads the bytes of a file as a value and the entries of a mapping as settings.  Either step can find a fault and tell it, or
break down over something it does not expect.  A file is read as UTF-8 as far as its reader gets; one that has a value was
read to its end.

* `Loader`: the two steps, and what is known of the first.
-/

namespace ThreatModel

/-- Over what a loader breaks down. -/
inductive Breakdown where
  /-- A text does not have a value of its kind. -/
  | value
  /-- A number is too large. -/
  | overflow
  /-- A word is in no list. -/
  | lookup
  /-- A text ends too early. -/
  | position
  /-- A part is missing. -/
  | missingPart
  /-- Values lie too deep in each other. -/
  | depth
deriving DecidableEq, Repr

/-- What is reported of a breakdown. -/
def Breakdown.message : Breakdown → String
  | value       => "A value of the configuration does not exist"
  | overflow    => "A number of the configuration is too large"
  | lookup      => "A word of the configuration is unknown"
  | position    => "A text of the configuration ends too early"
  | missingPart => "A value of the configuration lacks a part"
  | depth       => "The configuration is nested too deep"

/-- Why a file has no value. -/
inductive DocumentError where
  /-- It is not written in the format. -/
  | malformed
  /-- Its bytes are not UTF-8. -/
  | notText
  | breakdown (b : Breakdown)
deriving DecidableEq, Repr

/-- Why entries are no settings. -/
inductive EntriesError where
  | invalid (issues : List Issue)
  | breakdown (b : Breakdown)
deriving DecidableEq, Repr

/-- What understands configuration files. -/
structure Settings.Loader where
  /-- The value of a file; none if it has no content. -/
  document : List UInt8 → Except DocumentError (Option Value)
  /-- The settings of the entries of a mapping. -/
  settings : List (Value × Value) → Except EntriesError Settings
  /-- A file that has a value is UTF-8 to its end. -/
  decode?_of_document : ∀ {bytes : List UInt8} {doc : Option Value},
    document bytes = .ok doc → (Text.decode? bytes).isSome
  /-- A file that is refused as no text is not UTF-8. -/
  decode?_of_notText : ∀ {bytes : List UInt8}, document bytes = .error .notText → Text.decode? bytes = none

end ThreatModel
