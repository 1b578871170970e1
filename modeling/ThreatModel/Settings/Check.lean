import ThreatModel.Number.Numeral
import ThreatModel.Settings.Basic
import ThreatModel.Settings.Issue
import ThreatModel.Settings.Value
import ThreatModel.Text.Blank

/-!
# Checking settings

Settings are read from the entries of a mapping.  Every entry that cannot be used is an issue; all issues are listed, those
of known settings in the order in which the settings are declared, then those of unknown keys in the order of the entries.

* `Settings.ofEntries`: the settings of a configuration.
-/

namespace ThreatModel

namespace Check

/-- A value, or what is wrong with it. -/
abbrev Checked (α : Type) : Type := Except (List Issue) α

/-- The issues of a checked value. -/
def issues {α : Type} : Checked α → List Issue
  | .ok _     => []
  | .error is => is

/-- The issues one step further from the entry. -/
def under {α : Type} (step : PathStep) : Checked α → Checked α
  | .ok a     => .ok a
  | .error is => .error (is.map fun i => { i with path := step :: i.path })

/-- A single issue. -/
def fail {α : Type} (kind : IssueKind) : Checked α := .error [⟨[], kind⟩]

/-- A text. -/
def text : Value → Checked Text.Wide
  | .text s => .ok s
  | _       => fail .notText

/-- A text without halves of characters. -/
def wholeText (s : Text.Wide) : Checked String :=
  match Text.narrow? s with
  | some s => .ok s
  | none   => fail .halfCharacter

/-- A text or null. -/
def optionalText : Value → Checked (Option Text.Wide)
  | .null   => .ok none
  | .text s => .ok (some s)
  | _       => fail .notText

/-- One of a list of texts. -/
def choice (choices : List String) (v : Value) : Checked String := do
  let s ← wholeText (← text v)
  if s ∈ choices then return s else fail (.notListed choices)

/-- A text with something in it besides blanks, which are taken off its ends. -/
def outputPath (v : Value) : Checked Text.Wide := do
  let s := Text.trimWide (← text v)
  if s = [] then fail .blankOutput else return s

/-- The texts that stand for false. -/
def falseWords : List String := ["0", "off", "f", "false", "n", "no"]

/-- The texts that stand for true. -/
def trueWords : List String := ["1", "on", "t", "true", "y", "yes"]

/-- A truth value: also zero, one and certain words. -/
def truth : Value → Checked Bool
  | .bool b  => .ok b
  | .int i   => if i = 0 then .ok false else if i = 1 then .ok true else fail .unreadableTruth
  | .float x =>
    match x with
    | .finite _ 0 _ => .ok false
    | _             => if x = .ofInt 1 then .ok true else fail .notTruth
  | .text s  => do
    let low := String.ofList ((← wholeText s).toList.map Char.toLower)
    if low ∈ falseWords then return false
    else if low ∈ trueWords then return true
    else fail .unreadableTruth
  | _        => fail .notTruth

/-- A number: also a truth value and a numeral. -/
def number : Value → Checked Binary64
  | .float x => .ok x
  | .bool b  => .ok (.ofInt (if b then 1 else 0))
  | .int i   =>
    match Binary64.ofInt i with
    | .infinity _ => fail .notNumber
    | x           => .ok x
  | .text s  => do
    match Numeral.readLoose? (← wholeText s) with
    | some x => return x
    | none   => fail .unreadableNumber
  | _        => fail .notNumber

/-- The setting of a name, or its default if there is no entry for it. -/
def setting {α : Type} (entries : List (Value × Value)) (name : String) (default : α)
    (read : Value → Checked α) : Checked α :=
  match Value.entry? entries name with
  | some v => under (.name name) (read v)
  | none   => .ok default

/-- How a key is shown in a path: integers of 64 bits as numbers, others by name. -/
def keyStep : Value → PathStep
  | .text s  => .name ((Text.narrow? s).getD "")
  | .int i   => if -Int.pow 2 63 ≤ i ∧ i < Int.pow 2 63 then .number i else .name (Int.repr i)
  | .bool b  => .number (if b then 1 else 0)
  | .null    => .name "None"
  | .float x => .name x.text
  | .date s  => .name s
  | _        => .name ""

/-- The issues of the keys that name no setting. -/
def strangers (entries : List (Value × Value)) (known : List String) : List Issue :=
  entries.filterMap fun (k, _) =>
    match k with
    | .text s =>
      match Text.narrow? s with
      | some s => if s ∈ known then none else some ⟨[.name s], .unknownKey⟩
      | none   => some ⟨[], .halfCharacter⟩
    | _       => some ⟨[keyStep k], .keyNotText⟩

/-- A section read from its entries. -/
def inSection {α : Type} (name : String) (read : List (Value × Value) → Checked α) : Value → Checked α
  | .map entries => read entries
  | _            => fail (.notSection name)

end Check

open Check

/-- The settings of the section on reading. -/
def ReaderSettings.ofEntries (es : List (Value × Value)) : Checked ReaderSettings :=
  let d : ReaderSettings := {}
  match setting es "rebind_after_block" d.rebindAfterBlock truth, strangers es ["rebind_after_block"] with
  | .ok b, [] => .ok ⟨b⟩
  | b, is     => .error (issues b ++ is)

/-- The settings of the section on the component graph. -/
def GraphSettings.ofEntries (es : List (Value × Value)) : Checked GraphSettings :=
  let d : GraphSettings := {}
  match setting es "clamp_other_count" d.clampOtherCount truth, strangers es ["clamp_other_count"] with
  | .ok b, [] => .ok ⟨b⟩
  | b, is     => .error (issues b ++ is)

/-- The settings of the section on the diagram. -/
def DiagramSettings.ofEntries (es : List (Value × Value)) : Checked DiagramSettings :=
  let d : DiagramSettings := {}
  let output := setting es "output" d.output outputPath
  let format := setting es "format" d.format (choice formats)
  let direction := setting es "rankdir" d.rankDirection (choice directions)
  let separation := setting es "nodesep" d.nodeSeparation number
  let strange := strangers es ["output", "format", "rankdir", "nodesep"]
  match output, format, direction, separation, strange with
  | .ok o, .ok f, .ok r, .ok n, [] => .ok ⟨o, f, r, n⟩
  | _, _, _, _, _ =>
    .error (issues output ++ issues format ++ issues direction ++ issues separation ++ strange)

/-- The section on reading. -/
def ReaderSettings.ofValue : Value → Checked ReaderSettings := inSection "ParserSettings" ReaderSettings.ofEntries

/-- The section on the component graph. -/
def GraphSettings.ofValue : Value → Checked GraphSettings := inSection "GraphSettings" GraphSettings.ofEntries

/-- The section on the diagram. -/
def DiagramSettings.ofValue : Value → Checked DiagramSettings := inSection "DiagramSettings" DiagramSettings.ofEntries

/-- All settings. -/
def Settings.ofEntries (es : List (Value × Value)) : Checked Settings :=
  let d : Settings := {}
  let title := setting es "title" d.title optionalText
  let reader := setting es "parser" d.reader ReaderSettings.ofValue
  let graph := setting es "graph" d.graph GraphSettings.ofValue
  let diagram := setting es "diagram" d.diagram DiagramSettings.ofValue
  let strange := strangers es ["title", "parser", "graph", "diagram"]
  match title, reader, graph, diagram, strange with
  | .ok t, .ok r, .ok g, .ok d, [] => .ok ⟨t, r, g, d⟩
  | _, _, _, _, _ =>
    .error (issues title ++ issues reader ++ issues graph ++ issues diagram ++ strange)

/-- All settings of a configuration. -/
def Settings.ofValue : Value → Checked Settings := inSection "ThreatSpecConfig" Settings.ofEntries

end ThreatModel
