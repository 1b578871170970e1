import ThreatModel.Key
import ThreatModel.Pattern.Basic

/-!
# Places — a component in its zone

A place is written `zone:component`.  A text that cannot be cut that way, with something on either side of the first colon
that is not its first character, names a component that is a zone of its own.

* `Place.key`: the key of a place, `<zone key>-<component key>`.
-/

namespace ThreatModel

/-- A component in a zone. -/
structure Place where
  zone : String
  component : String
deriving DecidableEq, Repr

namespace Place

/-- The fields of a written place. -/
inductive Part where
  | zone
  | component
deriving DecidableEq, Repr

/-- `zone:component`. -/
def written : Pattern Part := .chain [.field .zone, ":", .field .component, .finish]

/-- The place that a text names. -/
def ofText (text : String) : Place :=
  match written.match? text with
  | some m => ⟨m.get .zone, m.get .component⟩
  | none   => ⟨text, text⟩

/-- The key under which the spellings of one place meet. -/
def key (p : Place) : String := keyOf p.zone ++ "-" ++ keyOf p.component

end Place

end ThreatModel
