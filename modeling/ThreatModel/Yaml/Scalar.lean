import ThreatModel.Text.Wide
import ThreatModel.Yaml.Cursor

/-!
# Scalars — the texts of a document

Each function reads one kind of scalar from a position, and gives its text and the position behind it: `plain` without
quotes, `quoted` in single or double quotes, `block` with an indicator and indented lines.  Lines of a plain or quoted scalar
fold: one line end becomes a space, more of them lose the first.  Only an escape in double quotes can write half of a
character.

* `plain`, `quoted`, `block`: the three kinds.
-/

namespace ThreatModel.Yaml.Scalar

/-- What a run of line ends contributes: `first`, unless it is a plain newline, and the others; a space for one newline. -/
def folded (first others : List Char) : List Char :=
  (if first ≠ ['\n'] then first else if others = [] then [' '] else []) ++ others

/-! ### Plain scalars -/

/-- A comma or a bracket of a flow collection. -/
def isFlowIndicator (c : Char) : Bool := c ∈ [',', '[', ']', '\x7b', '\x7d']

/-- The number of characters up to the next blank or the next character that ends a plain scalar. -/
def plainLength (inFlow : Bool) : List Char → Nat
  | []     => 0
  | c :: s =>
    let next := s.headD (Char.ofNat 0)
    if isBlankOrEnd c || (c == ':' && (isBlankOrEnd next || (inFlow && isFlowIndicator next))) ||
        (inFlow && (c == '?' || isFlowIndicator c)) then 0
    else plainLength inFlow s + 1

/-- Line ends and spaces after a line end; `none` in front of a document separator. -/
def plainBreaks : Nat → Cursor → List Char → Option (List Char) × Cursor
  | 0, c, acc        => (some acc, c)
  | fuel + 1, c, acc =>
    if c.peek 0 == ' ' then plainBreaks fuel c.step acc
    else if isBreak (c.peek 0) then
      let (b, c) := c.lineBreak
      if c.atSeparator then (none, c) else plainBreaks fuel c (acc ++ b)
    else (some acc, c)

/-- The space between two pieces of a plain scalar, and whether a line ends in it. -/
def plainSpace (c : Cursor) : List Char × Cursor × Bool :=
  let white := c.ahead (· == ' ')
  let c := c.skipSpaces
  if isBreak (c.peek 0) then
    let (first, c) := c.lineBreak
    if c.atSeparator then ([], c, true)
    else
      match plainBreaks (c.rest.length + 1) c [] with
      | (some others, c) => (folded first others, c, true)
      | (none, c)        => ([], c, true)
  else (white, c, false)

/-- The pieces of a plain scalar; `space` is what stands before the next one, `ended` whether a line has just ended. -/
def plainPieces (inFlow : Bool) (indent : Int) :
    Nat → Cursor → List Char → List Char → Bool → List Char × Cursor × Bool
  | 0, c, acc, _, ended            => (acc, c, ended)
  | fuel + 1, c, acc, space, ended =>
    let n := if c.peek 0 == '#' then 0 else plainLength inFlow c.rest
    if n = 0 then (acc, c, ended)
    else
      let acc := acc ++ space ++ c.rest.take n
      let (space, c, ended) := plainSpace (c.forward n)
      if space = [] || c.peek 0 == '#' || (!inFlow && c.column < indent) then (acc, c, ended)
      else plainPieces inFlow indent fuel c acc space ended

/-- Reads a plain scalar: its text, the position behind it, and whether a line has ended there. -/
def plain (inFlow : Bool) (indent : Int) (c : Cursor) : List Char × Cursor × Bool :=
  plainPieces inFlow indent (c.rest.length + 1) c [] [] false

/-! ### Quoted scalars -/

/-- The character that a letter stands for after a backslash. -/
def escape? (c : Char) : Option Char :=
  match c with
  | '0'  => some (Char.ofNat 0)
  | 'a'  => some (Char.ofNat 7)
  | 'b'  => some (Char.ofNat 8)
  | 't'  => some '\t'
  | '\t' => some '\t'
  | 'n'  => some '\n'
  | 'v'  => some (Char.ofNat 11)
  | 'f'  => some (Char.ofNat 12)
  | 'r'  => some '\r'
  | 'e'  => some (Char.ofNat 27)
  | ' '  => some ' '
  | '"'  => some '"'
  | '\\' => some '\\'
  | '/'  => some '/'
  | 'N'  => some (Char.ofNat 0x85)
  | '_'  => some (Char.ofNat 0xA0)
  | 'L'  => some (Char.ofNat 0x2028)
  | 'P'  => some (Char.ofNat 0x2029)
  | _    => none

/-- The number of hexadecimal digits after a backslash and a letter. -/
def escapeWidth? (c : Char) : Option Nat :=
  match c with
  | 'x' => some 2
  | 'u' => some 4
  | 'U' => some 8
  | _   => none

/-- The value of a hexadecimal digit. -/
def hexValue? (c : Char) : Option Nat :=
  if c.isDigit then some (c.toNat - '0'.toNat)
  else if 'a' ≤ c && c ≤ 'f' then some (c.toNat - 'a'.toNat + 10)
  else if 'A' ≤ c && c ≤ 'F' then some (c.toNat - 'A'.toNat + 10)
  else none

/-- The number that hexadecimal digits write. -/
def hexNumber? (ds : List Char) : Option Nat := ds.foldlM (fun n c => (hexValue? c).map (16 * n + ·)) 0

/-- The code point of a number in an escape. -/
def codePoint (n : Nat) : Except Fault CodePoint :=
  match CodePoint.ofNat? n with
  | some p => .ok p
  | none   => .error (if n < 0x80000000 then .noCodePoint else .largeCodePoint)

/-- Blanks and line ends between the lines of a quoted scalar. -/
def quotedBreaks : Nat → Cursor → List Char → Except Fault (List Char × Cursor)
  | 0, c, acc        => .ok (acc, c)
  | fuel + 1, c, acc =>
    if c.atSeparator then .error .separatorInQuote
    else
      let c := c.skip fun ch => ch == ' ' || ch == '\t'
      if isBreak (c.peek 0) then
        let (b, c) := c.lineBreak
        quotedBreaks fuel c (acc ++ b)
      else .ok (acc, c)

/-- A text of whole characters as a wide one. -/
def whole (s : List Char) : Text.Wide := s.map CodePoint.ofChar

/-- Characters of a quoted scalar up to a blank, a line end or the closing quote. -/
def quotedPiece (double : Bool) : Nat → Cursor → Text.Wide → Except Fault (Text.Wide × Cursor)
  | 0, c, acc        => .ok (acc, c)
  | fuel + 1, c, acc =>
    let run := c.ahead fun ch => !(isBlankOrEnd ch || ch == '\'' || ch == '"' || ch == '\\')
    let acc := acc ++ whole run
    let c := c.forward run.length
    let ch := c.peek 0
    if !double && ch == '\'' && c.peek 1 == '\'' then quotedPiece double fuel (c.forward 2) (acc ++ whole ['\''])
    else if (double && ch == '\'') || (!double && (ch == '"' || ch == '\\')) then
      quotedPiece double fuel c.step (acc ++ whole [ch])
    else if double && ch == '\\' then
      let c := c.step
      let ch := c.peek 0
      match escape? ch with
      | some e => quotedPiece double fuel c.step (acc ++ whole [e])
      | none   =>
        match escapeWidth? ch with
        | some w =>
          let c := c.step
          let ds := c.rest.take w
          if ds.length < w then .error .unknownEscape
          else
            match hexNumber? ds with
            | some n => do quotedPiece double fuel (c.forward w) (acc ++ [← codePoint n])
            | none   => .error .unknownEscape
        | none   =>
          if isBreak ch then do
            let (others, c) ← quotedBreaks (c.rest.length + 1) c.lineBreak.2 []
            quotedPiece double fuel c (acc ++ whole others)
          else .error .unknownEscape
    else .ok (acc, c)

/-- The space between two pieces of a quoted scalar. -/
def quotedSpace (c : Cursor) : Except Fault (List Char × Cursor) :=
  let white := c.ahead fun ch => ch == ' ' || ch == '\t'
  let c := c.forward white.length
  let ch := c.peek 0
  if ch.toNat == 0 then .error .unclosedQuote
  else if isBreak ch then do
    let (first, c) := c.lineBreak
    let (others, c) ← quotedBreaks (c.rest.length + 1) c []
    return (folded first others, c)
  else .ok (white, c)

/-- Pieces of a quoted scalar and the spaces between them, up to the closing quote. -/
def quotedPieces (double : Bool) : Nat → Cursor → Text.Wide → Except Fault (Text.Wide × Cursor)
  | 0, _, _          => .error .unclosedQuote
  | fuel + 1, c, acc =>
    if c.peek 0 == (if double then '"' else '\'') then .ok (acc, c.step)
    else do
      let (space, c) ← quotedSpace c
      let (piece, c) ← quotedPiece double (c.rest.length + 1) c []
      quotedPieces double fuel c (acc ++ whole space ++ piece)

/-- Reads a quoted scalar from its opening quote. -/
def quoted (c : Cursor) : Except Fault (Text.Wide × Cursor) := do
  let double := c.peek 0 == '"'
  let c := c.step
  let (piece, c) ← quotedPiece double (c.rest.length + 1) c []
  quotedPieces double (c.rest.length + 1) c piece

/-! ### Block scalars -/

/-- What happens to the line ends at the end of a block scalar. -/
inductive Chomping where
  | strip
  | clip
  | keep
deriving DecidableEq, Repr

/-- A chomping indicator. -/
def chomping? (c : Char) : Option Chomping :=
  match c with
  | '+' => some .keep
  | '-' => some .strip
  | _   => none

/-- An indentation indicator. -/
def increment? (c : Char) : Option Nat := if c.isDigit then some (c.toNat - '0'.toNat) else none

/-- The indicators of a block scalar, in either order: how it ends, and how far it is indented. -/
def blockHeader (c : Cursor) : Except Fault (Chomping × Option Nat × Cursor) :=
  let (chomp, step, c) :=
    match chomping? (c.peek 0) with
    | some ch =>
      let c := c.step
      match increment? (c.peek 0) with
      | some n => (ch, some n, c.step)
      | none   => (ch, none, c)
    | none =>
      match increment? (c.peek 0) with
      | some n =>
        let c := c.step
        match chomping? (c.peek 0) with
        | some ch => (ch, some n, c.step)
        | none    => (.clip, some n, c)
      | none => (.clip, none, c)
  if step = some 0 || !isSpaceOrEnd (c.peek 0) then .error .badBlockHeader else .ok (chomp, step, c)

/-- Leading line ends and spaces, and the greatest column they reach. -/
def blockIndentation : Nat → Cursor → List Char → Nat → List Char × Nat × Cursor
  | 0, c, acc, most        => (acc, most, c)
  | fuel + 1, c, acc, most =>
    if c.peek 0 == ' ' then
      let c := c.step
      blockIndentation fuel c acc (max most c.column)
    else if isBreak (c.peek 0) then
      let (b, c) := c.lineBreak
      blockIndentation fuel c (acc ++ b) most
    else (acc, most, c)

/-- The position after spaces that stand before a column. -/
def indentTo (indent : Nat) : Nat → Cursor → Cursor
  | 0, c        => c
  | fuel + 1, c => if c.column < indent && c.peek 0 == ' ' then indentTo indent fuel c.step else c

/-- Line ends between the lines of a block scalar, and the indentation of the next line. -/
def blockBreaks (indent : Nat) : Nat → Cursor → List Char → List Char × Cursor
  | 0, c, acc        => (acc, c)
  | fuel + 1, c, acc =>
    let c := indentTo indent indent c
    if isBreak (c.peek 0) then
      let (b, c) := c.lineBreak
      blockBreaks indent fuel c (acc ++ b)
    else (acc, c)

/-- A space or a tab. -/
def isWhite (c : Char) : Bool := c == ' ' || c == '\t'

/-- The lines of a block scalar, with the last line end and the line ends after it. -/
def blockLines (fold : Bool) (indent : Nat) :
    Nat → Cursor → List Char → List Char → List Char → List Char × List Char × List Char × Cursor
  | 0, c, acc, ended, breaks        => (acc, ended, breaks, c)
  | fuel + 1, c, acc, ended, breaks =>
    if c.column ≠ indent || (c.peek 0).toNat == 0 then (acc, ended, breaks, c)
    else
      let acc := acc ++ breaks
      let leading := !isWhite (c.peek 0)
      let text := c.ahead (!isBreakOrEnd ·)
      let acc := acc ++ text
      let (ended, c) := (c.forward text.length).lineBreak
      let (breaks, c) := blockBreaks indent (c.rest.length + 1) c []
      if c.column = indent && (c.peek 0).toNat != 0 then
        let joint :=
          if fold && ended = ['\n'] && leading && !isWhite (c.peek 0) then (if breaks = [] then [' '] else [])
          else ended
        blockLines fold indent fuel c (acc ++ joint) [] breaks
      else (acc, ended, breaks, c)

/-- Reads a block scalar from its indicator; `indent` is the indentation around it. -/
def block (indent : Int) (c : Cursor) : Except Fault (List Char × Cursor) := do
  let fold := c.peek 0 == '>'
  let (chomp, step, c) ← blockHeader c.step
  let c := c.skipSpaces.skipComment
  if !isBreakOrEnd (c.peek 0) then throw .badBlockHeader
  let c := c.lineBreak.2
  let least := (max (indent + 1) 1).toNat
  let (breaks, indent, c) :=
    match step with
    | none   =>
      let (breaks, most, c) := blockIndentation (c.rest.length + 1) c [] 0
      (breaks, max least most, c)
    | some n =>
      let indent := least + n - 1
      let (breaks, c) := blockBreaks indent (c.rest.length + 1) c []
      (breaks, indent, c)
  let (text, ended, breaks, c) := blockLines fold indent (c.rest.length + 1) c [] [] breaks
  let text := if chomp = .strip then text else text ++ ended
  return (if chomp = .keep then text ++ breaks else text, c)

end ThreatModel.Yaml.Scalar
