/-!
# Events — what the program reports of its own work

Every stage reports what it does as events.  An event belongs to a stage and has one line of text; verbose runs print
both.

* `Event.source`: the name of the stage.
* `Event.message`: the text.
-/

namespace ThreatModel

/-- Something that a stage reports. -/
inductive Event where
  /-- A configuration file is about to be read. -/
  | loadingConfiguration (path : String)
  /-- A source is about to be read. -/
  | parsingFile (name : String)
  /-- A fact stands where there is no function for it. -/
  | orphaned (line : String)
  /-- A line of the call graph names something that has no key. -/
  | edgeSkipped (line : String)
  /-- The call graph was read. -/
  | callGraphRead (callers : Nat)
  /-- A function of the table is looked up among the callers. -/
  | lookingForCaller (key : String)
  /-- The function is a caller. -/
  | callerFound (key : String)
  /-- One of its callees is a function of the table. -/
  | calleeFound (callee caller : String)
deriving DecidableEq, Repr

namespace Event

/-- The stage that reports the event. -/
def source : Event → String
  | loadingConfiguration _ => "threatspec.config"
  | parsingFile _          => "threatspec.parser"
  | orphaned _             => "threatspec.parser"
  | edgeSkipped _          => "threatspec.callgraph"
  | callGraphRead _        => "threatspec.callgraph"
  | lookingForCaller _     => "threatspec.correlator"
  | callerFound _          => "threatspec.correlator"
  | calleeFound _ _        => "threatspec.correlator"

/-- The text of the event. -/
def message : Event → String
  | loadingConfiguration path => "loading configuration from " ++ path
  | parsingFile name          => "parsing file " ++ name
  | orphaned line             => "orphaned: " ++ line
  | edgeSkipped line          => "skipping call graph edge: " ++ line
  | callGraphRead callers     => "read call graph with " ++ Nat.repr callers ++ " callers"
  | lookingForCaller key      => "looking for caller " ++ key
  | callerFound key           => "found caller " ++ key
  | calleeFound callee caller => "found callee " ++ callee ++ " for caller " ++ caller

/-- The line that a verbose run prints. -/
def line (e : Event) : String := "DEBUG " ++ e.source ++ ": " ++ e.message ++ "\n"

end Event

end ThreatModel
