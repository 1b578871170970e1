import ThreatModel.Settings.Check
import ThreatModel.Settings.Loader
import ThreatModel.Text.Lines
import ThreatModel.Yaml.Document

/-!
# The loader of YAML files

`Settings.Loader.yaml` reads a file as UTF-8, its text as a YAML document and the entries of the document as settings.  Some
faults of a document are told; over the others reading breaks down (`Fault.breakdown?`).
-/

namespace ThreatModel

/-- How reading breaks down over a fault, unless the fault is told. -/
def Yaml.Fault.breakdown? : Fault → Option Breakdown
  | noCodePoint    => some .value
  | largeCodePoint => some .overflow
  | noNumber       => some .value
  | tooManyGroups  => some .overflow
  | emptyNumber    => some .position
  | tooManyDigits  => some .value
  | unknownTruth   => some .lookup
  | noDate         => some .missingPart
  | impossibleDate => some .value
  | tooDeep        => some .depth
  | _              => none

namespace Settings

/-- The error of a fault. -/
def DocumentError.ofFault (f : Yaml.Fault) : DocumentError :=
  match f.breakdown? with
  | some b => .breakdown b
  | none   => .malformed

/-- The value of a YAML file. -/
def yamlDocument (bytes : List UInt8) : Except DocumentError (Option Value) :=
  match Text.decode? bytes with
  | some text => (Yaml.read (String.ofList (Text.unifyLineEnds text))).mapError DocumentError.ofFault
  | none      => .error .notText

theorem DocumentError.ofFault_ne_notText (f : Yaml.Fault) : ofFault f ≠ .notText := by
  rw [ofFault]
  split <;> nofun

theorem yamlDocument_eq_notText_iff {bytes : List UInt8} :
    yamlDocument bytes = .error .notText ↔ Text.decode? bytes = none := by
  rw [yamlDocument]
  cases Text.decode? bytes with
  | none => exact ⟨fun _ => rfl, fun _ => rfl⟩
  | some text =>
    refine ⟨fun h => ?_, nofun⟩
    dsimp only at h
    cases hread : Yaml.read (String.ofList (Text.unifyLineEnds text)) with
    | error f =>
      rw [hread] at h
      exact absurd (Except.error.inj h) (DocumentError.ofFault_ne_notText f)
    | ok doc =>
      rw [hread] at h
      cases h

/-- What understands YAML files. -/
def Loader.yaml : Loader where
  document := yamlDocument
  settings entries := (ofEntries entries).mapError .invalid
  decode?_of_document := by
    intro bytes doc h
    cases htext : Text.decode? bytes with
    | some text => rfl
    | none =>
      rw [yamlDocument_eq_notText_iff.mpr htext] at h
      cases h
  decode?_of_notText := yamlDocument_eq_notText_iff.mp

end Settings

end ThreatModel
