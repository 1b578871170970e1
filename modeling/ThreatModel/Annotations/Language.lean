import ThreatModel.Pattern.Basic
import ThreatModel.Text.Blank
import ThreatModel.Text.Lower
import ThreatModel.Text.Word

/-!
# Languages — the line that defines a function

The language of a source is told from the end of its name, and decides which lines define a function.  A definition names
the function and shows its signature, the code.

* `Language.ofFileName`: Go unless the name ends otherwise.
* `Language.definition`: the pattern of a definition.
-/

namespace ThreatModel

/-- A language whose function definitions are known. -/
inductive Language where
  | go
  | python
  | ruby
deriving DecidableEq, Repr

/-- The fields of a definition. -/
inductive DefinitionPart where
  | code
  | function
deriving DecidableEq, Repr

namespace Language

/-- The endings of file names, in the order in which they are tried. -/
def endings : List (String × Language) := [(".go", go), (".py", python), (".rb", ruby)]

/-- The language of a file name, in any case; Go if the ending is unknown. -/
def ofFileName (name : String) : Language :=
  let low := Text.lower name.toList
  match endings.find? fun (ending, _) => ending.toList.isSuffixOf low with
  | some (_, l) => l
  | none        => go

/-- Blanks, as many as there are. -/
def blanks : Pattern DefinitionPart := .many true Text.isBlank

/-- Characters of a line, as few as possible. -/
def anything : Pattern DefinitionPart := .many false Pattern.notNewline

/-- A character of a Ruby method name. -/
def isMethodChar (c : Char) : Bool := Text.isWord c || c == '?' || c == '!' || c == '='

/-- `func`, a signature with an opening parenthesis, and an opening brace. -/
def goDefinition : Pattern DefinitionPart :=
  .chain [blanks, "func", .several true Text.isBlank,
    .capture .code (.chain [.field .function, "(", anything]),
    blanks, "\x7b"]

/-- `def`, a name and an opening parenthesis; the signature ends before a colon at the end of the line. -/
def pythonDefinition : Pattern DefinitionPart :=
  .chain [blanks, .optional (.chain ["async", .several true Text.isBlank]), "def", .several true Text.isBlank,
    .capture .code (.chain [.capture .function (.several true Text.isWord), blanks, "(", anything]),
    blanks, .optional ":", blanks, .finish]

/-- `def`, a name that may start with `self.`, and perhaps arguments in parentheses. -/
def rubyDefinition : Pattern DefinitionPart :=
  .chain [blanks, "def", .several true Text.isBlank,
    .capture .code (.chain [.optional "self.", .capture .function (.several true isMethodChar),
      .optional (.chain ["(", anything, ")"])]),
    blanks, .finish]

/-- The pattern of a line that defines a function. -/
def definition : Language → Pattern DefinitionPart
  | go     => goDefinition
  | python => pythonDefinition
  | ruby   => rubyDefinition

end Language

end ThreatModel
