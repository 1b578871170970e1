import ThreatModel.Pattern.Basic
import ThreatModel.Text.Blank

/-!
# Forms — how annotations are written

An annotation is a comment line, opened by `//` or `#`, in one of eight forms.  Its fields stand between fixed words, are
never empty and take as little as they can; blanks at the end of the line belong to no field.  Four forms may end in a
reference in parentheses.

* `Form.pattern`: the pattern of each form.
-/

namespace ThreatModel.Annotations

/-- The forms of annotations. -/
inductive Form where
  /-- `ThreatSpec package <package> [as <alias>]` -/
  | package
  /-- `ThreatSpec <model> for <function>` -/
  | header
  /-- `Mitigates <component> against <threat> with <mitigation> [(<ref>)]` -/
  | mitigation
  /-- `Exposes <component> to <threat> with <exposure> [(<ref>)]` -/
  | exposure
  /-- `It|Does|Creates|Returns <action> for <component> [(<ref>)]` -/
  | capability
  /-- `Sends|Receives <subject> from <component> to <component>` -/
  | flow
  /-- `Tests <function> for <threat> [(<ref>)]` -/
  | test
  /-- `Calls <functions>` -/
  | calls
deriving DecidableEq, Repr

/-- The fields of annotations. -/
inductive Part where
  | package
  | knownAs
  | model
  | function
  | component
  | threat
  | mitigation
  | exposure
  | action
  | reference
  | direction
  | subject
  | source
  | target
  | functions
deriving DecidableEq, Repr

/-- Blanks, as many as there are. -/
def blanks : Pattern Part := .many true Text.isBlank

/-- The opening of a comment. -/
def comment : Pattern Part := .chain [blanks, .choice ["//", "#"], blanks]

/-- Blanks up to the end of the line. -/
def ending : Pattern Part := .chain [blanks, .finish]

/-- A reference in parentheses, if there is one, up to the end of the line. -/
def reference : Pattern Part :=
  .chain [blanks,
    .optional (.chain ["(", .capture .reference (.many false Pattern.notNewline), ")"]),
    ending]

/-- The pattern of a form. -/
def Form.pattern : Form → Pattern Part
  | package =>
    .chain [comment, "ThreatSpec package ", .field .package, .optional (.chain [" as ", .field .knownAs]), ending]
  | header =>
    .chain [comment, "ThreatSpec ", .field .model, " for ", .field .function, ending]
  | mitigation =>
    .chain [comment, "Mitigates ", .field .component, " against ", .field .threat, " with ", .field .mitigation,
      reference]
  | exposure =>
    .chain [comment, "Exposes ", .field .component, " to ", .field .threat, " with ", .field .exposure, reference]
  | capability =>
    .chain [comment, .choice ["It", "Does", "Creates", "Returns"], " ", .field .action, " for ", .field .component,
      reference]
  | flow =>
    .chain [comment, .capture .direction (.choice ["Sends", "Receives"]), " ", .field .subject,
      " from ", .field .source, " to ", .field .target, ending]
  | test =>
    .chain [comment, "Tests ", .field .function, " for ", .field .threat, reference]
  | calls =>
    .chain [comment, "Calls ", .field .functions, ending]

end ThreatModel.Annotations
