import ThreatModel.Event
import ThreatModel.FunctionName
import ThreatModel.Ledger
import ThreatModel.Text.Blank
import ThreatModel.Text.Lines
import ThreatModel.Text.Utf8

/-!
# Call graphs — who calls whom, and where

A call graph is read from lines `caller TAB --marker-line:column--> TAB callee`.  Callers and callees go by their keys, in
order of first appearance; the sites of one pair are listed in order.  Other lines are passed over, and so are edges whose
caller or callee has no key.

* `CallGraph.addLine`: what one line does to the graph.
* `CallGraph.ofLines`, `CallGraph.ofText`, `CallGraph.ofSource`: whole graphs.
* `CallSite.number`: a line or column of more than 4300 digits is refused.
-/

namespace ThreatModel

/-- Where a call stands. -/
structure CallSite where
  line : Nat
  column : Nat
deriving DecidableEq, Repr

/-- The callers, for each the callees, for each the sites of its calls. -/
abbrev CallGraph : Type := Ledger String (Ledger String (List CallSite))

/-- A line or column number has too many digits. -/
structure NumberTooLong where
  digits : Nat
deriving DecidableEq, Repr

/-- What is reported of a number that is too long. -/
def NumberTooLong.message (e : NumberTooLong) : String :=
  "Exceeds the limit (4300 digits) for integer string conversion: value has " ++ Nat.repr e.digits ++
    " digits; use sys.set_int_max_str_digits() to increase the limit"

/-- The most digits of a line or column number. -/
def CallSite.maxDigits : Nat := 4300

/-- The number that digits write, if there are not too many of them. -/
def CallSite.number (digits : String) : Except NumberTooLong Nat :=
  if CallSite.maxDigits < digits.length then .error ⟨digits.length⟩
  else .ok ((Text.decimal? digits.toList).getD 0)

namespace CallGraph

/-- The fields of an edge. -/
inductive Part where
  | caller
  | marker
  | line
  | column
  | callee
deriving DecidableEq, Repr

/-- `caller TAB --marker-line:column--> TAB callee` -/
def edge : Pattern Part :=
  .chain [.field .caller, "\t--", .field .marker, "-", .capture .line (.several true Text.isDecimal), ":",
    .capture .column (.several true Text.isDecimal), "-->\t", .field .callee, .finish]

/-- No calls. -/
def empty : CallGraph := Ledger.empty

/-- Adds the site of a call. -/
def addCall (g : CallGraph) (caller callee : String) (site : CallSite) : CallGraph :=
  g.alter caller fun callees => (callees.getD .empty).alter callee fun sites => sites.getD [] ++ [site]

/-- A line without the line ends behind it. -/
def withoutLineEnds (line : String) : String :=
  String.ofList (line.toList.reverse.dropWhile fun c => c = '\r' || c = '\n').reverse

/-- A graph and what was reported while it was read. -/
structure Reading where
  graph : CallGraph := empty
  events : List Event := []

/-- Why a graph could not be read, and what was reported before. -/
structure Refusal where
  cause : NumberTooLong
  events : List Event
deriving DecidableEq, Repr

/-- The site written in an edge. -/
def siteOf (m : Pattern.Match Part) : Except NumberTooLong CallSite := do
  let line ← CallSite.number (m.get .line)
  let column ← CallSite.number (m.get .column)
  return ⟨line, column⟩

/-- Reads one line. -/
def addLine (g : Reading) (line : String) : Except Refusal Reading :=
  match edge.match? (withoutLineEnds line) with
  | none   => .ok g
  | some m =>
    match FunctionName.key? (m.get .caller), FunctionName.key? (m.get .callee) with
    | some caller, some callee =>
      match siteOf m with
      | .ok site     => .ok { g with graph := addCall g.graph caller callee site }
      | .error cause => .error ⟨cause, g.events⟩
    | _, _ =>
      .ok { g with events := g.events ++ [.edgeSkipped (String.ofList (Text.trimRight line.toList))] }

/-- Reads lines. -/
def ofLines (lines : List String) : Except Refusal Reading := lines.foldlM addLine {}

/-- Reads a text; an empty one is read without a report. -/
def ofText (text : String) : Except Refusal Reading :=
  if text = "" then .ok {}
  else do
    let g ← ofLines ((Text.lines text.toList).map String.ofList)
    return { g with events := g.events ++ [.callGraphRead g.graph.size] }

/-- Where a call graph may come from. -/
inductive Source where
  /-- Nothing is attached. -/
  | absent
  /-- A terminal, which is never read. -/
  | terminal
  /-- A text. -/
  | text (contents : String)
  /-- Bytes, which are a text if they are UTF-8. -/
  | bytes (contents : List UInt8)

/-- Why a source gives no graph. -/
inductive SourceError where
  /-- The bytes are not UTF-8. -/
  | notText
  | refused (r : Refusal)
deriving DecidableEq, Repr

/-- Reads a source. -/
def ofSource : Source → Except SourceError Reading
  | .absent   => .ok {}
  | .terminal => .ok {}
  | .text s   => (ofText s).mapError .refused
  | .bytes bs =>
    match Text.decode? bs with
    | some s => (ofText (String.ofList (Text.unifyLineEnds s))).mapError .refused
    | none   => .error .notText

end CallGraph

end ThreatModel
