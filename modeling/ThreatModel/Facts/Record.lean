import ThreatModel.FunctionName
import ThreatModel.Place
import ThreatModel.Text.Given
import ThreatModel.Text.Lower

/-!
# Records — what the annotations say about one function

A header comment `ThreatSpec <model> for <function>` opens a record.  The comments after it add the facts of this module:
mitigations and exposures (`ThreatFact`), capabilities, data flows, tests and declared calls.  A definition in the code
gives the record its site.

* `FunctionRecord.qualifiedName`, `FunctionRecord.key`: the name a record goes by, and its key in the table of functions.
* `FunctionRecord.calleeLabel`: how the record is named on an edge into it.
-/

namespace ThreatModel

/-- A package declaration; functions declared after it belong to it. -/
structure Package where
  name : String
  /-- The short name given after `as`. -/
  knownAs : Option String := none
  raw : String := ""
deriving DecidableEq, Repr

/-- A mitigation of, or an exposure to, one threat to one place. -/
structure ThreatFact where
  place : Place
  threat : String
  description : String
  reference : Option String := none
  raw : String := ""
deriving DecidableEq, Repr

/-- An action on a place that concerns no threat. -/
structure Capability where
  action : String
  place : Place
  reference : Option String := none
  raw : String := ""
deriving DecidableEq, Repr

/-- Data sent or received between two places. -/
structure DataFlow where
  direction : String
  subject : String
  source : Place
  target : Place
  raw : String := ""
deriving DecidableEq, Repr

/-- A test of a function against a threat. -/
structure ThreatTest where
  function : String
  threat : String
  reference : Option String := none
  raw : String := ""
deriving DecidableEq, Repr

/-- A call that an annotation declares, by the key of the callee. -/
structure DeclaredCall where
  callee : String
  raw : String := ""
deriving DecidableEq, Repr

/-- Where a definition stands, and its signature. -/
structure CodeSite where
  file : String
  line : Int
  code : String
deriving DecidableEq, Repr

/-- The fact about a place written `zone:component`. -/
def ThreatFact.ofText (place threat description : String) (reference : Option String) (raw : String) : ThreatFact :=
  ⟨Place.ofText place, threat, description, reference, raw⟩

/-- The capability on a place written `zone:component`. -/
def Capability.ofText (action place : String) (reference : Option String) (raw : String) : Capability :=
  ⟨action, Place.ofText place, reference, raw⟩

/-- The flow between places written `zone:component`; its direction is in lower case. -/
def DataFlow.ofText (direction subject source target raw : String) : DataFlow :=
  ⟨String.ofList (Text.lower direction.toList), subject, Place.ofText source, Place.ofText target, raw⟩

/-- What is known about one annotated function. -/
structure FunctionRecord where
  model : String
  function : String
  package : Option Package := none
  raw : String := ""
  mitigations : List ThreatFact := []
  exposures : List ThreatFact := []
  capabilities : List Capability := []
  flows : List DataFlow := []
  tests : List ThreatTest := []
  calls : List DeclaredCall := []
  site : Option CodeSite := none
deriving DecidableEq, Repr, Inhabited

namespace FunctionRecord

/-- `package.function`, or the bare function without a package. -/
def qualifiedName (r : FunctionRecord) : String :=
  match r.package with
  | some p => p.name ++ "." ++ r.function
  | none   => r.function

/-- The function's own name, after the last dot. -/
def shortName (r : FunctionRecord) : String := FunctionName.afterLastDot r.function

/-- The key of the function in the table. -/
def key (r : FunctionRecord) : String := FunctionName.key r.qualifiedName

/-- How a callee that is stored under `key` is named on an edge: by its package's short or full name, if it has one. -/
def calleeLabel (r : FunctionRecord) (key : String) : String :=
  match r.package with
  | some p => Text.givenOr p.knownAs p.name ++ "." ++ r.shortName
  | none   => key

end FunctionRecord

end ThreatModel
