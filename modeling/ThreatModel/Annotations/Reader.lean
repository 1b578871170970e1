import ThreatModel.Annotations.Form
import ThreatModel.Annotations.Language
import ThreatModel.Event
import ThreatModel.Facts.Basic
import ThreatModel.Text.Lines

/-!
# Reader — from source lines to facts

A source is read line by line.  Each line is read by the first rule whose pattern it has: the eight forms of annotations
and the definitions of its language.  A header opens a record and its annotation block; the block ends at the first line
that no rule reads.  Five kinds of facts count inside a block only; definitions and declared calls go to the latest record
wherever they stand, unless `rebind` is off and its block has ended.

* `Statement`: what a line says.
* `statement?`: the first rule that reads a line, and what it reads.
* `step`: what a line does to the facts.
* `readSource`, `readSources`: whole sources.
-/

namespace ThreatModel.Annotations

/-- What reads a line: a form of annotations, or a definition in the code. -/
inductive Rule where
  | form (f : Form)
  | definition
deriving DecidableEq, Repr

/-- The rules in the order in which they are tried. -/
def rules : List Rule :=
  [.form .package, .form .header, .form .mitigation, .form .exposure, .form .capability, .form .flow, .form .test,
    .definition, .form .calls]

/-- The rule is tried inside annotation blocks only. -/
def Rule.blockOnly : Rule → Bool
  | form .mitigation => true
  | form .exposure   => true
  | form .capability => true
  | form .flow       => true
  | form .test       => true
  | _                => false

/-- What a line says. -/
inductive Statement where
  | package (p : Package)
  | header (model function : String)
  | mitigation (f : ThreatFact)
  | exposure (f : ThreatFact)
  | capability (c : Capability)
  | flow (f : DataFlow)
  | test (t : ThreatTest)
  | calls (cs : List DeclaredCall)
  | definition (function code : String)
deriving DecidableEq, Repr

/-- The calls that a list of names declares, the dots of each as colons. -/
def declaredCalls (names raw : String) : List DeclaredCall :=
  (Text.words names.toList).map fun w => ⟨FunctionName.colons (String.ofList w), raw⟩

/-- What a line of a form says, by its fields. -/
def Form.statement (raw : String) (m : Pattern.Match Part) : Form → Statement
  | package    => .package ⟨m.get .package, m.get? .knownAs, raw⟩
  | header     => .header (m.get .model) (m.get .function)
  | mitigation =>
    .mitigation (.ofText (m.get .component) (m.get .threat) (m.get .mitigation) (m.get? .reference) raw)
  | exposure   =>
    .exposure (.ofText (m.get .component) (m.get .threat) (m.get .exposure) (m.get? .reference) raw)
  | capability => .capability (.ofText (m.get .action) (m.get .component) (m.get? .reference) raw)
  | flow       => .flow (.ofText (m.get .direction) (m.get .subject) (m.get .source) (m.get .target) raw)
  | test       => .test ⟨m.get .function, m.get .threat, m.get? .reference, raw⟩
  | calls      => .calls (declaredCalls (m.get .functions) raw)

/-- What the rule reads in a line. -/
def Rule.read? (language : Language) (line : String) : Rule → Option Statement
  | form f     => (f.pattern.match? line).map fun m => f.statement line m
  | definition => (language.definition.match? line).map fun m => .definition (m.get .function) (m.get .code)

/-- What the first rule that reads the line reads in it. -/
def statement? (order : List Rule) (language : Language) (inBlock : Bool) (line : String) : Option Statement :=
  order.findSome? fun r => if r.blockOnly && !inBlock then none else r.read? language line

/-- The way sources are read. -/
structure Reader where
  /-- Definitions and calls after the end of a block go to its record. -/
  rebind : Bool := true
  /-- The rules in the order in which they are tried. -/
  order : List Rule := rules

/-- The facts so far and the position within a source. -/
structure State where
  facts : Facts
  /-- Lines read of this source. -/
  line : Nat := 0
  /-- Inside an annotation block. -/
  inBlock : Bool := false
  /-- The latest package of this source. -/
  package : Option Package := none
  /-- The record that facts go to. -/
  current : Option RecordId := none
  /-- What was reported, in order. -/
  events : List Event := []

namespace State

/-- Gives a fact to the current record and counts it; without a record the line is reported. -/
def attach (s : State) (raw : String) (change : FunctionRecord → FunctionRecord) : State :=
  match s.current with
  | some id =>
    let facts := s.facts.update id change
    { s with facts := { facts with covered := Tally.bump facts.covered id } }
  | none    => { s with events := s.events ++ [.orphaned raw] }

/-- Counts a test of a function if there is a record for it. -/
def countTest (s : State) (function : String) : State :=
  match s.current with
  | some _ => { s with facts := { s.facts with tested := Tally.bump s.facts.tested function } }
  | none   => s

/-- Counts a definition, and binds the current record to it if the name ends in the record's own. -/
def define (s : State) (file function code : String) : State :=
  let s := { s with facts := { s.facts with found := Tally.bump s.facts.found function } }
  match s.current, (Text.words function.toList).getLast? with
  | some id, some w =>
    if String.ofList w = (s.facts.record id).shortName then
      { s with facts := s.facts.update id fun r => { r with site := some ⟨file, s.line, code⟩ } }
    else s
  | _, _ => s

/-- The end of the block. -/
def endBlock (s : State) (rebind : Bool) : State :=
  { s with
    inBlock := false
    current := if rebind then s.current else none }

/-- A statement takes effect. -/
def apply (s : State) (file raw : String) : Statement → State
  | .package p      =>
    { s with
      package := some p
      facts := { s.facts with packages := s.facts.packages ++ [p] } }
  | .header m f     =>
    let (facts, id) := s.facts.add { model := m, function := f, package := s.package, raw := raw }
    { s with
      facts := facts
      current := some id
      inBlock := true }
  | .mitigation f   => s.attach raw fun r => { r with mitigations := r.mitigations ++ [f] }
  | .exposure f     => s.attach raw fun r => { r with exposures := r.exposures ++ [f] }
  | .capability c   => s.attach raw fun r => { r with capabilities := r.capabilities ++ [c] }
  | .flow f         => s.attach raw fun r => { r with flows := r.flows ++ [f] }
  | .test t         => (s.countTest t.function).attach raw fun r => { r with tests := r.tests ++ [t] }
  | .calls cs       => s.attach raw fun r => { r with calls := r.calls ++ cs }
  | .definition f c => s.define file f c

/-- Stores the current record under its key. -/
def store (s : State) : State :=
  match s.current with
  | some id => { s with facts := s.facts.put (s.facts.record id).key id }
  | none    => s

end State

namespace Reader

/-- Reads one line of a file. -/
def step (r : Reader) (file : String) (s : State) (line : String) : State :=
  let s := { s with line := s.line + 1 }
  let s :=
    match statement? r.order (Language.ofFileName file) s.inBlock line with
    | some st => s.apply file line st
    | none    => s.endBlock r.rebind
  s.store

/-- Reads the lines of a file into the facts there are. -/
def readLines (r : Reader) (file : String) (facts : Facts) (lines : List String) : Facts × List Event :=
  let s := lines.foldl (r.step file) { facts := facts, events := [.parsingFile file] }
  (s.facts, s.events)

/-- The lines of a text. -/
def linesOf (text : String) : List String := (Text.lines text.toList).map String.ofList

/-- Reads one source into the facts there are. -/
def readSource (r : Reader) (facts : Facts) (file text : String) : Facts × List Event :=
  r.readLines file facts (linesOf text)

/-- Reads sources, given by name and text, in order. -/
def readSources (r : Reader) (facts : Facts) : List (String × String) → Facts × List Event
  | []                     => (facts, [])
  | (file, text) :: sources =>
    let (facts, events) := r.readSource facts file text
    let (facts, later) := r.readSources facts sources
    (facts, events ++ later)

end Reader

end ThreatModel.Annotations
