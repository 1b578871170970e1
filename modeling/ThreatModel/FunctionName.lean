import ThreatModel.Pattern.Basic
import ThreatModel.Text.Digit

/-!
# Function names — one key for every spelling of a function

A function is spelled `package.Function` or `package.Type.Function` in annotations, and `(*path/package.Type).Function#2`
in call graphs.  Its key joins the parts that are there, path, package, type and function, by colons; a number after `#`
at the end is left out.

* `FunctionName.key?`: the key of a spelling; a name that cannot be cut at a dot has none.
* `FunctionName.key`: the key of an annotated function, which always exists: dots stand as colons where `key?` fails.
-/

namespace ThreatModel.FunctionName

/-- The parts of a spelled name. -/
inductive Part where
  | path
  | package
  | type
  | function
  | suffix
deriving DecidableEq, Repr

/-- A spelled name. -/
def written : Pattern Part :=
  .chain [.optional "(", .optional "*",
    .optional (.chain [.capture .path (.several true Pattern.notNewline), "/"]),
    .optional (.chain [.field .package, "."]),
    .optional (.field .type), .optional ")", ".",
    .field .function,
    .optional (.capture .suffix (.chain ["#", .several true Text.isDecimal])),
    .finish]

/-- The parts that are there and not empty, joined by colons. -/
def joinParts (parts : List (Option String)) : String :=
  String.intercalate ":" ((parts.map (·.getD "")).filter (· ≠ ""))

/-- The key of a spelled name; `none` if the name has no dot to cut it at. -/
def key? (name : String) : Option String :=
  (written.match? name).map fun m =>
    joinParts [m.get? .path, m.get? .package, m.get? .type, m.get? .function]

/-- The dots of a name as colons. -/
def colons (name : String) : String := String.ofList (name.toList.map fun c => if c = '.' then ':' else c)

/-- The key of a name, with the dots as colons where `key?` gives none or an empty one. -/
def key (name : String) : String :=
  match key? name with
  | some k => if k = "" then colons name else k
  | none   => colons name

/-- What follows the last dot of a name. -/
def afterLastDot (name : String) : String :=
  String.ofList (name.toList.reverse.takeWhile (· ≠ '.')).reverse

end ThreatModel.FunctionName
