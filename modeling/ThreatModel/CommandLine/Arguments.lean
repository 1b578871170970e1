/-!
# Arguments — options and files among the words of a command line

A word that starts with a dash is an option: `--title`, with its value behind `=` or in the next word, or `-t`, with its
value right behind it or in the next word; several short options may share a word.  A word `--` ends the options.  All
other words are files.

* `Arguments.read`: the options in order, and the files.
* `Arguments.value?`: of an option that is given more than once the last value counts.
-/

namespace ThreatModel.CommandLine

/-- An option of a command. -/
inductive Flag where
  | config
  | title
  | output
  | format
  | verbose
deriving DecidableEq, Repr

namespace Flag

/-- The name after two dashes. -/
def long : Flag → String
  | config  => "--config"
  | title   => "--title"
  | output  => "--output"
  | format  => "--format"
  | verbose => "--verbose"

/-- The letter after one dash. -/
def letter : Flag → Char
  | config  => 'c'
  | title   => 't'
  | output  => 'o'
  | format  => 'f'
  | verbose => 'v'

/-- A letter with its dash. -/
def short (letter : Char) : String := String.ofList ['-', letter]

/-- The option has a value. -/
def takesValue (f : Flag) : Bool := f ≠ verbose

/-- Both names of the option, as shown to the user. -/
def names (f : Flag) : String := "'" ++ f.long ++ "' / '" ++ short f.letter ++ "'"

end Flag

/-- What is wrong with the words. -/
inductive WordError where
  | unknown (option : String)
  | needsValue (option : String)
  | takesNoValue (option : String)
deriving DecidableEq, Repr

/-- An option and its value, which is empty for one that takes none. -/
abbrev Setting : Type := Flag × String

/-- What a word gives: options, and perhaps one more whose value is the next word, with the name it was called by. -/
structure OptionWord where
  given : List Setting
  open? : Option (Flag × String) := none

/-- A word cut at its first `=`: the name, and the value if there is one. -/
def cutAtEquals (word : List Char) : List Char × Option String :=
  match word.dropWhile (· ≠ '=') with
  | []         => (word, none)
  | _ :: value => (word.takeWhile (· ≠ '='), some (String.ofList value))

/-- The letters after a single dash. -/
def readLetters (flags : List Flag) : List Char → Except WordError OptionWord
  | []      => .ok ⟨[], none⟩
  | c :: cs =>
    match flags.find? (·.letter = c) with
    | none   => .error (.unknown (Flag.short c))
    | some f =>
      if f.takesValue then
        if cs = [] then .ok ⟨[], some (f, Flag.short c)⟩ else .ok ⟨[(f, String.ofList cs)], none⟩
      else do
        let more ← readLetters flags cs
        return { more with given := (f, "") :: more.given }

/-- A word that starts with a dash. -/
def readOption (flags : List Flag) (word : List Char) : Except WordError OptionWord :=
  let (name, value) := cutAtEquals word
  let name := String.ofList name
  match flags.find? (·.long = name), value with
  | some f, some v =>
    if f.takesValue then .ok ⟨[(f, v)], none⟩ else .error (.takesNoValue name)
  | some f, none   => .ok (if f.takesValue then ⟨[], some (f, name)⟩ else ⟨[(f, "")], none⟩)
  | none, _        =>
    match word with
    | '-' :: '-' :: _ => .error (.unknown name)
    | _ :: letters    => readLetters flags letters
    | []              => .ok ⟨[], none⟩

/-- A word that is an option: it starts with a dash and goes on. -/
def isOption (word : List Char) : Bool := word.head? == some '-' && 2 ≤ word.length

/-- The options and files of a command line. -/
structure Arguments where
  given : List Setting := []
  files : List String := []
deriving DecidableEq, Repr

namespace Arguments

/-- These options before the others. -/
def after (given : List Setting) (a : Arguments) : Arguments := { a with given := given ++ a.given }

/-- One file before the others. -/
def withFile (file : String) (a : Arguments) : Arguments := { a with files := file :: a.files }

/-- Reads words. -/
def read (flags : List Flag) : List String → Except WordError Arguments
  | []             => .ok {}
  | word :: others =>
    if word = "--" then .ok { files := others }
    else if isOption word.toList then
      match readOption flags word.toList with
      | .error e              => .error e
      | .ok ⟨given, none⟩     => (read flags others).map (after given)
      | .ok ⟨given, some (f, name)⟩ =>
        match others with
        | []              => .error (.needsValue name)
        | value :: others => (read flags others).map (after (given ++ [(f, value)]))
    else (read flags others).map (withFile word)

/-- The value of an option; the last one counts. -/
def value? (a : Arguments) (f : Flag) : Option String := (a.given.reverse.find? (·.1 = f)).map Prod.snd

/-- The option is given. -/
def has (a : Arguments) (f : Flag) : Bool := (a.value? f).isSome

end Arguments

end ThreatModel.CommandLine
