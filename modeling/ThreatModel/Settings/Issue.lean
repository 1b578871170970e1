/-!
# Issues — what is wrong with a setting, and where

* `Issue`: what is wrong, and the way to it.
-/

namespace ThreatModel

/-- A step on the way to an entry. -/
inductive PathStep where
  | name (s : String)
  | number (i : Int)
deriving DecidableEq, Repr

/-- What is wrong with an entry. -/
inductive IssueKind where
  | unknownKey
  | keyNotText
  | notSection (name : String)
  | notText
  | halfCharacter
  | notListed (choices : List String)
  | blankOutput
  | unreadableTruth
  | notTruth
  | unreadableNumber
  | notNumber
deriving DecidableEq, Repr

/-- An issue and the way to its entry. -/
structure Issue where
  path : List PathStep
  kind : IssueKind
deriving DecidableEq, Repr

namespace IssueKind

/-- The code of an issue. -/
def code : IssueKind → String
  | unknownKey       => "extra_forbidden"
  | keyNotText       => "invalid_key"
  | notSection _     => "model_type"
  | notText          => "string_type"
  | halfCharacter    => "string_unicode"
  | notListed _      => "string_pattern_mismatch"
  | blankOutput      => "value_error"
  | unreadableTruth  => "bool_parsing"
  | notTruth         => "bool_type"
  | unreadableNumber => "float_parsing"
  | notNumber        => "float_type"

/-- The text of an issue. -/
def message : IssueKind → String
  | unknownKey       => "Extra inputs are not permitted"
  | keyNotText       => "Keys should be strings"
  | notSection name  => "Input should be a valid dictionary or instance of " ++ name
  | notText          => "Input should be a valid string"
  | halfCharacter    => "Input should be a valid string, unable to parse raw data as a unicode string"
  | notListed cs     => "String should match pattern '^(" ++ String.intercalate "|" cs ++ ")$'"
  | blankOutput      => "Value error, Diagram output path cannot be empty"
  | unreadableTruth  => "Input should be a valid boolean, unable to interpret input"
  | notTruth         => "Input should be a valid boolean"
  | unreadableNumber => "Input should be a valid number, unable to parse string as a number"
  | notNumber        => "Input should be a valid number"

end IssueKind

end ThreatModel
