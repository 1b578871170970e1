import ThreatModel.Yaml.Plain
import ThreatModel.Yaml.Token

/-!
# Nodes — the structure of a document

A node is a scalar, a sequence or a mapping, with its tag.  `Node.ofTokens` builds the node of a document, or none for a
document without content; aliases are replaced by the nodes they name.  There may be one document only.

* `Node.ofTokens`: the node of a list of tokens.
-/

namespace ThreatModel.Yaml

/-- A part of a document. -/
inductive Node where
  | scalar (tag : String) (text : Text.Wide)
  | sequence (tag : String) (items : List Node)
  | mapping (tag : String) (entries : List (Node × Node))
  /-- An alias of a node that holds it. -/
  | cycle
deriving Repr, Inhabited

namespace Node

/-- A tag of the language itself. -/
def coreTag (name : String) : String := "tag:yaml.org,2002:" ++ name

/-- The tag of an unquoted text. -/
def plainTag (s : Text.Wide) : String :=
  coreTag <|
    match ((Text.narrow? s).map Plain.kindOf).getD .text with
    | .null    => "null"
    | .bool    => "bool"
    | .int     => "int"
    | .float   => "float"
    | .date    => "timestamp"
    | .merge   => "merge"
    | .default => "value"
    | .text    => "str"

/-- What stands for a node that is left out. -/
def missing : Node := scalar (coreTag "null") []

/-- The tokens that are left, and what names mean. -/
structure Builder where
  tokens : List Token
  anchors : List (String × Node) := []
  handles : List (String × String) := []
  /-- In how many collections the next token lies. -/
  depth : Nat := 0

/-- A step of building nodes. -/
abbrev Build : Type → Type := StateT Builder (Except Fault)

/-- The next token. -/
def peek : Build (Option Token) := do return (← get).tokens.head?

/-- Passes a token. -/
def advance : Build Unit := modify fun b => { b with tokens := b.tokens.tail }

/-- Passes a token if it comes next. -/
def accept (t : Token) : Build Bool := do
  if (← peek) = some t then
    advance
    return true
  else return false

/-- One of these tokens comes next, or none is left and `orEnd` is set. -/
def atOne (ts : List Token) : Build Bool := do
  match ← peek with
  | some t => return decide (t ∈ ts)
  | none   => return false

/-- The full tag of a written one. -/
def fullTag (handle : Option String) (suffix : String) : Build String := do
  match handle with
  | none   => return suffix
  | some h =>
    match (← get).handles.find? (·.1 = h) with
    | some (_, start) => return start ++ suffix
    | none            => throw .undefinedHandle

/-- Reads an anchor and a tag, in either order, each if it is there. -/
def properties : Build (Option String × Option String) := do
  match ← peek with
  | some (.anchor a) =>
    advance
    match ← peek with
    | some (.tag h s) =>
      advance
      return (some a, some (← fullTag h s))
    | _               => return (some a, none)
  | some (.tag h s) =>
    advance
    match ← peek with
    | some (.anchor a) =>
      advance
      return (some a, some (← fullTag h s))
    | _                => return (none, some (← fullTag h s))
  | _ => return (none, none)

/-- Gives a node a name while it is built: its name stands for a cycle inside it. -/
def openAnchor (name : Option String) : Build Unit := do
  if let some n := name then
    let b ← get
    if b.anchors.any (·.1 = n) then throw .repeatedAnchor
    set { b with anchors := (n, cycle) :: b.anchors }

/-- Gives a built node its name. -/
def closeAnchor (name : Option String) (node : Node) : Build Node := do
  if let some n := name then
    modify fun b => { b with anchors := (n, node) :: b.anchors }
  return node

/-- How deep collections may lie in each other. -/
def depthLimit : Nat := 480

/-- Builds the content of a collection, one step deeper. -/
def deeper (content : Build Node) : Build Node := do
  let b ← get
  if b.depth = depthLimit then throw .tooDeep
  set { b with depth := b.depth + 1 }
  let n ← content
  modify fun b => { b with depth := b.depth - 1 }
  return n

/-- Builds a collection and gives it its name. -/
def collection (anchor : Option String) (content : Build Node) : Build Node := do
  openAnchor anchor
  closeAnchor anchor (← deeper content)

/-- The tag of a collection. -/
def collectionTag (tag : Option String) (name : String) : String :=
  match tag with
  | some t => if t = "!" then coreTag name else t
  | none   => coreTag name

/-- The tag of a scalar. -/
def scalarTag (tag : Option String) (text : Text.Wide) (plain : Bool) : String :=
  match tag with
  | some t => if t = "!" then plainTag text else t
  | none   => if plain then plainTag text else coreTag "str"

mutual

/-- Reads a node; `block` allows block collections, `loose` allows entries of a sequence without a collection of their own. -/
def node (block loose : Bool) : Nat → Build Node
  | 0        => throw .tooDeep
  | fuel + 1 => do
    if let some (.reference name) := ← peek then
      advance
      match (← get).anchors.find? (·.1 = name) with
      | some (_, n) => return n
      | none        => throw .undefinedAlias
    let (anchor, tag) ← properties
    match ← peek with
    | some .blockEntry =>
      if loose then collection anchor (return sequence (collectionTag tag "seq") (← looseItems fuel))
      else empty anchor tag
    | some (.scalar s plain) =>
      advance
      openAnchor anchor
      closeAnchor anchor (scalar (scalarTag tag s plain) s)
    | some .flowSequenceStart =>
      advance
      collection anchor (return sequence (collectionTag tag "seq") (← flowItems true fuel))
    | some .flowMappingStart =>
      advance
      collection anchor (return mapping (collectionTag tag "map") (← flowEntries true fuel))
    | some .blockSequenceStart =>
      if block then
        advance
        collection anchor (return sequence (collectionTag tag "seq") (← blockItems fuel))
      else empty anchor tag
    | some .blockMappingStart =>
      if block then
        advance
        collection anchor (return mapping (collectionTag tag "map") (← blockEntries fuel))
      else empty anchor tag
    | _ => empty anchor tag
where
  /-- A node with nothing but an anchor or a tag. -/
  empty (anchor tag : Option String) : Build Node := do
    if anchor = none ∧ tag = none then throw .unexpectedToken
    openAnchor anchor
    closeAnchor anchor (scalar (scalarTag tag [] true) [])

/-- Reads the items of a block sequence and its end. -/
def blockItems : Nat → Build (List Node)
  | 0        => throw .tooDeep
  | fuel + 1 => do
    if ← accept .blockEntry then
      let item ← if ← atOne [.blockEntry, .blockEnd] then pure missing else node true false fuel
      return item :: (← blockItems fuel)
    else if ← accept .blockEnd then return []
    else throw .unexpectedToken

/-- Reads the items of a sequence that has no collection of its own. -/
def looseItems : Nat → Build (List Node)
  | 0        => throw .tooDeep
  | fuel + 1 => do
    if ← accept .blockEntry then
      let item ← if ← atOne [.blockEntry, .key, .value, .blockEnd] then pure missing else node true false fuel
      return item :: (← looseItems fuel)
    else return []

/-- Reads the entries of a block mapping and its end. -/
def blockEntries : Nat → Build (List (Node × Node))
  | 0        => throw .tooDeep
  | fuel + 1 => do
    if ← accept .key then
      let key ← if ← atOne [.key, .value, .blockEnd] then pure missing else node true true fuel
      let value ←
        if ← accept .value then
          if ← atOne [.key, .value, .blockEnd] then pure missing else node true true fuel
        else pure missing
      return (key, value) :: (← blockEntries fuel)
    else if ← accept .blockEnd then return []
    else throw .unexpectedToken

/-- Reads the items of a flow sequence and its end; a comma stands before all but the first. -/
def flowItems (first : Bool) : Nat → Build (List Node)
  | 0        => throw .tooDeep
  | fuel + 1 => do
    if ← accept .flowSequenceEnd then return []
    if !first then
      if !(← accept .flowEntry) then throw .unexpectedToken
    if ← accept .key then
      let key ←
        if ← atOne [.value, .flowEntry, .flowSequenceEnd] then pure missing else node false false fuel
      let value ←
        if ← accept .value then
          if ← atOne [.flowEntry, .flowSequenceEnd] then pure missing else node false false fuel
        else pure missing
      return mapping (coreTag "map") [(key, value)] :: (← flowItems false fuel)
    else if ← accept .flowSequenceEnd then return []
    else
      let item ← node false false fuel
      return item :: (← flowItems false fuel)

/-- Reads the entries of a flow mapping and its end; a comma stands before all but the first. -/
def flowEntries (first : Bool) : Nat → Build (List (Node × Node))
  | 0        => throw .tooDeep
  | fuel + 1 => do
    if ← accept .flowMappingEnd then return []
    if !first then
      if !(← accept .flowEntry) then throw .unexpectedToken
    if ← accept .key then
      let key ←
        if ← atOne [.value, .flowEntry, .flowMappingEnd] then pure missing else node false false fuel
      let value ←
        if ← accept .value then
          if ← atOne [.flowEntry, .flowMappingEnd] then pure missing else node false false fuel
        else pure missing
      return (key, value) :: (← flowEntries false fuel)
    else if ← accept .flowMappingEnd then return []
    else
      let key ← node false false fuel
      return (key, missing) :: (← flowEntries false fuel)

end

/-- Reads directives: one version at most, of the first edition, and one meaning for each handle. -/
def directives : Nat → Bool → Build Unit
  | 0, _              => throw .tooDeep
  | fuel + 1, versioned => do
    match ← peek with
    | some (.versionDirective major) =>
      advance
      if versioned || major ≠ 1 then throw .badDirective
      directives fuel true
    | some (.tagDirective handle start) =>
      advance
      let b ← get
      if b.handles.any (·.1 = handle) then throw .badDirective
      set { b with handles := (handle, start) :: b.handles }
      directives fuel versioned
    | some .otherDirective =>
      advance
      directives fuel versioned
    | _ =>
      let b ← get
      set { b with handles := b.handles ++ [("!", "!"), ("!!", coreTag "")] }

/-- Passes the ends of documents. -/
def skipEnds : Nat → Build Unit
  | 0        => pure ()
  | fuel + 1 => do
    if ← accept .documentEnd then skipEnds fuel

/-- A directive comes next. -/
def atDirective : Build Bool := do
  match ← peek with
  | some (.versionDirective _) => return true
  | some (.tagDirective _ _)   => return true
  | some .otherDirective       => return true
  | _                          => return false

/-- Reads a document that begins with a marker; none if nothing is left. -/
def markedDocument (fuel : Nat) : Build (Option Node) := do
  skipEnds fuel
  if (← peek).isNone then return none
  modify fun b => { b with handles := [] }
  directives fuel false
  if !(← accept .documentStart) then throw .unexpectedToken
  if (← peek).isNone || (← atDirective) || (← atOne [.documentStart, .documentEnd]) then return some missing
  return some (← node true false fuel)

/-- Reads the only document. -/
def document (fuel : Nat) : Build (Option Node) := do
  if (← peek).isNone then return none
  let first ←
    if (← atDirective) || (← atOne [.documentStart]) then markedDocument fuel
    else do
      modify fun b => { b with handles := [("!", "!"), ("!!", coreTag "")] }
      pure (some (← node true false fuel))
  -- what follows may only be the end of the document
  skipEnds fuel
  if (← peek).isSome then throw .secondDocument
  return first

/-- The node of a list of tokens; none if there is no content. -/
def ofTokens (ts : List Token) : Except Fault (Option Node) :=
  (document (4 * ts.length + 16)).run' { tokens := ts }

end Node

end ThreatModel.Yaml
