import ThreatModel.Number.Shortest
import ThreatModel.Text.Wide

/-!
# Values — the data a configuration is written in

A configuration file holds texts, numbers, truth values, dates, lists and mappings.  The keys of a mapping are values too.
-/

namespace ThreatModel

/-- A value of a configuration. -/
inductive Value where
  | null
  | bool (b : Bool)
  | int (i : Int)
  | float (x : Binary64)
  | text (s : Text.Wide)
  /-- A date or time; only its display is kept. -/
  | date (shown : String)
  | list (items : List Value)
  | map (entries : List (Value × Value))
deriving Repr, Inhabited

namespace Value

/-- The text that a value is. -/
def text? : Value → Option Text.Wide
  | text s => some s
  | _      => none

/-- The value of a key in the entries of a mapping. -/
def entry? (entries : List (Value × Value)) (key : String) : Option Value :=
  (entries.find? fun e => e.1.text? = some (Text.wide key)).map Prod.snd

end Value

end ThreatModel
