import ThreatModel.Text.Utf8
import ThreatModel.Yaml.Plain
import ThreatModel.Yaml.Scalar

/-!
# Tokens — the marks and scalars of a document

`Token.scan` cuts a document into tokens.  Indentation becomes tokens too: a block collection starts where a deeper column
holds an entry or a key, and ends where the column falls back.  A key that has no mark of its own is recognised by the colon
behind it, on the same line and within 1024 characters; the tokens that open it are then put in front of it.

* `Token.scan`: the tokens of a document.
-/

namespace ThreatModel.Yaml

/-- A token. -/
inductive Token where
  | versionDirective (major : Nat)
  | tagDirective (handle written : String)
  | otherDirective
  | documentStart
  | documentEnd
  | blockSequenceStart
  | blockMappingStart
  | blockEnd
  | flowSequenceStart
  | flowSequenceEnd
  | flowMappingStart
  | flowMappingEnd
  | blockEntry
  | flowEntry
  | key
  | value
  | reference (name : String)
  | anchor (name : String)
  | tag (handle : Option String) (suffix : String)
  | scalar (text : Text.Wide) (plain : Bool)
deriving DecidableEq, Repr

namespace Token

/-- A place where a key may have begun. -/
structure KeyStart where
  /-- The number of tokens before it. -/
  tokens : Nat
  /-- There must be a key here. -/
  required : Bool
  index : Nat
  line : Nat
  column : Nat

/-- The scan so far. -/
structure Lexer where
  cursor : Cursor
  tokens : List Token := []
  /-- Open flow collections. -/
  depth : Nat := 0
  /-- The column of the innermost block collection. -/
  indent : Int := -1
  /-- The columns around it. -/
  indents : List Int := []
  /-- A key may begin here. -/
  keyAllowed : Bool := true
  /-- The last possible start of a key, by depth. -/
  keyStarts : List (Nat × KeyStart) := []

/-- A step of the scan. -/
abbrev Scan : Type → Type := StateT Lexer (Except Fault)

/-- Adds a token. -/
def emit (t : Token) : Scan Unit := modify fun l => { l with tokens := l.tokens ++ [t] }

/-- Moves to a position. -/
def moveTo (c : Cursor) : Scan Unit := modify fun l => { l with cursor := c }

/-- Passes `n` characters. -/
def pass (n : Nat) : Scan Unit := modify fun l => { l with cursor := l.cursor.forward n }

/-- Allows or forbids a key to begin here. -/
def allowKey (b : Bool) : Scan Unit := modify fun l => { l with keyAllowed := b }

/-- The possible start of a key at a depth. -/
def keyStart? (l : Lexer) (depth : Nat) : Option KeyStart := (l.keyStarts.find? (·.1 = depth)).map Prod.snd

/-- Forgets the starts of keys that the position has left behind. -/
def dropStaleKeys : Scan Unit := do
  let l ← get
  let stale := fun (_, k) => k.line ≠ l.cursor.line || 1024 < l.cursor.index - k.index
  if l.keyStarts.any fun k => stale k && k.2.required then throw .keyExpected
  set { l with keyStarts := l.keyStarts.filter fun k => !stale k }

/-- Forgets the start of a key at this depth. -/
def dropKey : Scan Unit := do
  let l ← get
  if let some k := keyStart? l l.depth then
    if k.required then throw .keyExpected
  set { l with keyStarts := l.keyStarts.filter fun k => k.1 ≠ l.depth }

/-- Remembers that a key may begin here. -/
def saveKey : Scan Unit := do
  let l ← get
  if l.keyAllowed then
    dropKey
    let l ← get
    let start : KeyStart :=
      { tokens := l.tokens.length
        required := l.depth = 0 && l.indent = l.cursor.column
        index := l.cursor.index
        line := l.cursor.line
        column := l.cursor.column }
    set { l with keyStarts := (l.depth, start) :: l.keyStarts }

/-- Closes the block collections to the right of a column. -/
def unwindTo (column : Int) : Nat → Scan Unit
  | 0        => pure ()
  | fuel + 1 => do
    let l ← get
    if l.depth = 0 && column < l.indent then
      set { l with
        indent := l.indents.headD (-1)
        indents := l.indents.tail
        tokens := l.tokens ++ [Token.blockEnd] }
      unwindTo column fuel

/-- Closes the block collections to the right of a column. -/
def unwind (column : Int) : Scan Unit := do
  unwindTo column ((← get).indents.length + 1)

/-- Opens a block collection at a column if it lies deeper. -/
def deepen (column : Nat) : Scan Bool := do
  let l ← get
  if l.indent < column then
    set { l with
      indents := l.indent :: l.indents
      indent := column }
    return true
  else return false

/-! ### Directives, anchors and tags -/

/-- Reads the digits of a version number. -/
def versionNumber (c : Cursor) : Except Fault (Nat × Cursor) :=
  let ds := c.ahead Char.isDigit
  if ds = [] then .error .badDirective
  else if Plain.maxDigits < ds.length then .error .tooManyDigits
  else .ok (ds.foldl (fun n d => 10 * n + (d.toNat - '0'.toNat)) 0, c.forward ds.length)

/-- A character of a tag. -/
def isUriChar (c : Char) : Bool := isNameChar c || c ∈ ";/?:@&=+$,_.!~*'()[]%".toList

/-- Reads bytes written as `%` and two hexadecimal digits. -/
def uriBytes : Nat → Cursor → List UInt8 → Except Fault (List UInt8 × Cursor)
  | 0, c, acc        => .ok (acc, c)
  | fuel + 1, c, acc =>
    if c.peek 0 == '%' then
      match Scalar.hexValue? (c.peek 1), Scalar.hexValue? (c.peek 2) with
      | some a, some b => uriBytes fuel (c.forward 3) (acc ++ [(16 * a + b).toUInt8])
      | _, _           => .error .badTag
    else .ok (acc, c)

/-- Reads the characters of a tag. -/
def uri : Nat → Cursor → List Char → Except Fault (List Char × Cursor)
  | 0, c, acc        => .ok (acc, c)
  | fuel + 1, c, acc =>
    if c.peek 0 == '%' then do
      let (bytes, c) ← uriBytes (c.rest.length + 1) c []
      match Text.decode? bytes with
      | some s => uri fuel c (acc ++ s)
      | none   => throw .badTag
    else if isUriChar (c.peek 0) then uri fuel c.step (acc ++ [c.peek 0])
    else .ok (acc, c)

/-- Reads the characters of a tag, of which there must be one at least. -/
def uri1 (c : Cursor) : Except Fault (String × Cursor) := do
  let (s, c) ← uri (c.rest.length + 1) c []
  if s = [] then throw .badTag
  return (String.ofList s, c)

/-- Reads a tag handle: `!`, `!!` or a name between exclamation marks. -/
def tagHandle (c : Cursor) : Except Fault (String × Cursor) :=
  if c.peek 0 != '!' then .error .badTag
  else if c.peek 1 == ' ' then .ok ("!", c.step)
  else
    let name := c.step.ahead isNameChar
    if c.peek (name.length + 1) != '!' then .error .badTag
    else .ok (String.ofList ('!' :: name ++ ['!']), c.forward (name.length + 2))

/-- Reads a directive up to the end of its line. -/
def directive (c : Cursor) : Except Fault (Token × Cursor) := do
  let c := c.step
  let name := c.ahead isNameChar
  let c := c.forward name.length
  if name = [] || !isSpaceOrEnd (c.peek 0) then throw .badDirective
  let (token, c) ←
    if name = "YAML".toList then do
      let (major, c) ← versionNumber c.skipSpaces
      if c.peek 0 != '.' then throw .badDirective
      let (_, c) ← versionNumber c.step
      if !isSpaceOrEnd (c.peek 0) then throw .badDirective
      pure (Token.versionDirective major, c)
    else if name = "TAG".toList then do
      let (handle, c) ← tagHandle c.skipSpaces
      if c.peek 0 != ' ' then throw .badDirective
      let (written, c) ← uri1 c.skipSpaces
      if !isSpaceOrEnd (c.peek 0) then throw .badDirective
      pure (Token.tagDirective handle written, c)
    else pure (Token.otherDirective, c.skip (!isBreakOrEnd ·))
  let c := c.skipSpaces.skipComment
  if !isBreakOrEnd (c.peek 0) then throw .badDirective
  return (token, c.lineBreak.2)

/-- Reads the name of an anchor or alias after its mark. -/
def anchorName (c : Cursor) : Except Fault (String × Cursor) := do
  let c := c.step
  let name := c.ahead isNameChar
  let c := c.forward name.length
  if name = [] then throw .badName
  if !(isBlankOrEnd (c.peek 0) || c.peek 0 ∈ ['?', ':', ',', ']', '\x7d', '%', '@', '\x60']) then throw .badName
  return (String.ofList name, c)

/-- Reads a tag. -/
def readTag (c : Cursor) : Except Fault (Token × Cursor) := do
  let ch := c.peek 1
  let (token, c) ←
    if ch == '<' then do
      let (suffix, c) ← uri1 (c.forward 2)
      if c.peek 0 != '>' then throw .badTag
      pure (Token.tag none suffix, c.step)
    else if isBlankOrEnd ch then pure (Token.tag none "!", c.step)
    else
      let word := c.step.ahead (!isSpaceOrEnd ·)
      if '!' ∈ word then do
        let (handle, c) ← tagHandle c
        let (suffix, c) ← uri1 c
        pure (Token.tag (some handle) suffix, c)
      else do
        let (suffix, c) ← uri1 c.step
        pure (Token.tag (some "!") suffix, c)
  if !isSpaceOrEnd (c.peek 0) then throw .badTag
  return (token, c)

/-! ### The scan -/

/-- The position of the next token, and whether a line ended before it. -/
def toNextToken : Nat → Cursor → Bool → Cursor × Bool
  | 0, c, ended        => (c, ended)
  | fuel + 1, c, ended =>
    let c := c.skipSpaces.skipComment
    if isBreak (c.peek 0) then toNextToken fuel c.lineBreak.2 true else (c, ended)

/-- A document marker. -/
def documentMark (t : Token) : Scan Unit := do
  unwind (-1)
  dropKey
  allowKey false
  pass 3
  emit t

/-- The start of a flow collection. -/
def flowStart (t : Token) : Scan Unit := do
  saveKey
  modify fun l => { l with depth := l.depth + 1 }
  allowKey true
  pass 1
  emit t

/-- The end of a flow collection. -/
def flowEnd (t : Token) : Scan Unit := do
  dropKey
  if (← get).depth = 0 then throw .unbalancedBracket
  modify fun l => { l with depth := l.depth - 1 }
  allowKey false
  pass 1
  emit t

/-- The mark of a sequence entry. -/
def entryMark : Scan Unit := do
  let l ← get
  if l.depth = 0 then
    if !l.keyAllowed then throw .notAllowedHere
    if ← deepen l.cursor.column then emit .blockSequenceStart
  allowKey true
  dropKey
  pass 1
  emit .blockEntry

/-- The mark of a key. -/
def keyMark : Scan Unit := do
  let l ← get
  if l.depth = 0 then
    if !l.keyAllowed then throw .notAllowedHere
    if ← deepen l.cursor.column then emit .blockMappingStart
  allowKey (l.depth = 0)
  dropKey
  pass 1
  emit .key

/-- The mark of a value: what stands before it may turn out to be a key. -/
def valueMark : Scan Unit := do
  let l ← get
  match keyStart? l l.depth with
  | some k =>
    set { l with keyStarts := l.keyStarts.filter fun k => k.1 ≠ l.depth }
    let opened ← if l.depth = 0 then deepen k.column else pure false
    let marks := if opened then [Token.blockMappingStart, Token.key] else [Token.key]
    modify fun l => { l with tokens := l.tokens.take k.tokens ++ marks ++ l.tokens.drop k.tokens }
    allowKey false
  | none   =>
    if l.depth = 0 then
      if !l.keyAllowed then throw .notAllowedHere
      if ← deepen l.cursor.column then emit .blockMappingStart
    allowKey (l.depth = 0)
    dropKey
  pass 1
  emit .value

/-- A token that can begin a key: an alias, an anchor, a tag or a quoted scalar. -/
def nodePart (read : Cursor → Except Fault (Token × Cursor)) : Scan Unit := do
  saveKey
  allowKey false
  let (t, c) ← read (← get).cursor
  moveTo c
  emit t

/-- A block scalar. -/
def blockScalar : Scan Unit := do
  allowKey true
  dropKey
  let l ← get
  let (s, c) ← Scalar.block l.indent l.cursor
  moveTo c
  emit (.scalar (Scalar.whole s) false)

/-- A plain scalar. -/
def plainScalar : Scan Unit := do
  saveKey
  let l ← get
  let (s, c, ended) := Scalar.plain (l.depth ≠ 0) (l.indent + 1) l.cursor
  moveTo c
  allowKey ended
  emit (.scalar (Scalar.whole s) true)

/-- The characters that begin no plain scalar, unless it is one of the first three with more behind it. -/
def indicators : List Char := "-?:,[]\x7b\x7d#&*!|>'\"%@\x60".toList

/-- A plain scalar begins here. -/
def plainBegins (inFlow : Bool) (ch next : Char) : Bool :=
  !(isBlankOrEnd ch || ch ∈ indicators) ||
    (!isBlankOrEnd next && (ch == '-' || (!inFlow && (ch == '?' || ch == ':'))))

/-- Reads a token. -/
def readToken (l : Lexer) : Scan Unit :=
  let c := l.cursor
  let ch := c.peek 0
  let inFlow := l.depth ≠ 0
  let alone := isBlankOrEnd (c.peek 1)
  if ch == '%' && c.column = 0 then do
    unwind (-1)
    dropKey
    allowKey false
    let (t, c) ← directive c
    moveTo c
    emit t
  else if ch == '-' && c.column = 0 && c.atSeparator then documentMark .documentStart
  else if ch == '.' && c.column = 0 && c.atSeparator then documentMark .documentEnd
  else if ch == '[' then flowStart .flowSequenceStart
  else if ch == '\x7b' then flowStart .flowMappingStart
  else if ch == ']' then flowEnd .flowSequenceEnd
  else if ch == '\x7d' then flowEnd .flowMappingEnd
  else if ch == ',' then do
    allowKey true
    dropKey
    pass 1
    emit .flowEntry
  else if ch == '-' && alone then entryMark
  else if ch == '?' && (inFlow || alone) then keyMark
  else if ch == ':' && (inFlow || alone) then valueMark
  else if ch == '*' then nodePart fun c => (anchorName c).map fun (n, c) => (.reference n, c)
  else if ch == '&' then nodePart fun c => (anchorName c).map fun (n, c) => (.anchor n, c)
  else if ch == '!' then nodePart readTag
  else if (ch == '|' || ch == '>') && !inFlow then blockScalar
  else if ch == '\'' || ch == '"' then
    nodePart fun c => (Scalar.quoted c).map fun (s, c) => (.scalar s false, c)
  else if plainBegins inFlow ch (c.peek 1) then plainScalar
  else throw .strayCharacter

/-- Reads tokens up to the end. -/
def readTokens : Nat → Scan Unit
  | 0        => throw .tooDeep
  | fuel + 1 => do
    let l ← get
    let (c, ended) := toNextToken (l.cursor.rest.length + 1) l.cursor false
    set { l with
      cursor := c
      keyAllowed := l.keyAllowed || (ended && l.depth = 0) }
    dropStaleKeys
    unwind c.column
    if c.rest = [] then
      unwind (-1)
      dropKey
    else do
      readToken (← get)
      readTokens fuel

/-- A character that a document may hold. -/
def isAllowed (c : Char) : Bool :=
  let n := c.toNat
  n == 9 || n == 10 || n == 13 || (0x20 ≤ n && n ≤ 0x7E) || n == 0x85 || (0xA0 ≤ n && n ≤ 0xD7FF) ||
    (0xE000 ≤ n && n ≤ 0xFFFD) || 0x10000 ≤ n

/-- The tokens of a document. -/
def scan (s : List Char) : Except Fault (List Token) :=
  if !s.all isAllowed then .error .unprintable
  else do
    let c : Cursor := { rest := s }
    let c := if (c.peek 0).toNat = 0xFEFF then c.step else c
    let ((), l) ← (readTokens (s.length + 2)).run { cursor := c }
    return l.tokens

end Token

end ThreatModel.Yaml
