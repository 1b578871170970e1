/-!
# Cursors — a position in a document

A cursor is what is left of a document together with its index, line and column.  `step` passes one character; line ends are
`\n`, `\r`, `\r\n`, U+0085, U+2028 and U+2029, and a byte order mark takes no column.  Beyond the end a document reads as
NUL, which is no character of a document.

* `Fault`: why a document has no value.
* `Cursor.lineBreak`: reads one line end.
-/

namespace ThreatModel.Yaml

/-- Why a document has no value. -/
inductive Fault where
  | unprintable
  | strayCharacter
  | keyExpected
  | notAllowedHere
  | unbalancedBracket
  | badDirective
  | badName
  | badTag
  | badBlockHeader
  | unclosedQuote
  | separatorInQuote
  | unknownEscape
  | unexpectedToken
  | undefinedHandle
  | undefinedAlias
  | repeatedAnchor
  | secondDocument
  | unknownTag
  | unhashableKey
  | badMerge
  /-- A number that is no code point stands in an escape. -/
  | noCodePoint
  /-- A number of more than 31 bits stands in an escape. -/
  | largeCodePoint
  /-- A number has no digits, or something else in them. -/
  | noNumber
  /-- A number has more groups of digits than a double can weigh. -/
  | tooManyGroups
  /-- A number is empty. -/
  | emptyNumber
  /-- A number has too many digits. -/
  | tooManyDigits
  /-- A word for truth is neither true nor false. -/
  | unknownTruth
  /-- A text is not written as a date. -/
  | noDate
  /-- There is no such day or time. -/
  | impossibleDate
  | tooDeep
deriving DecidableEq, Repr

/-- A position in a document. -/
structure Cursor where
  rest : List Char
  index : Nat := 0
  line : Nat := 0
  column : Nat := 0

/-- A line end. -/
def isBreak (c : Char) : Bool :=
  c == '\n' || c == '\r' || c.toNat == 0x85 || c.toNat == 0x2028 || c.toNat == 0x2029

/-- A line end or the end of the document. -/
def isBreakOrEnd (c : Char) : Bool := isBreak c || c.toNat == 0

/-- A space, a line end or the end. -/
def isSpaceOrEnd (c : Char) : Bool := c == ' ' || isBreakOrEnd c

/-- A space, a tab, a line end or the end. -/
def isBlankOrEnd (c : Char) : Bool := c == '\t' || isSpaceOrEnd c

/-- A letter, digit, hyphen or underscore of ASCII. -/
def isNameChar (c : Char) : Bool := c.isAlphanum || c == '-' || c == '_'

namespace Cursor

/-- The character `n` places ahead. -/
def peek (c : Cursor) (n : Nat) : Char := c.rest.getD n (Char.ofNat 0)

/-- The position after one character. -/
def step (c : Cursor) : Cursor :=
  match c.rest with
  | []      => c
  | ch :: r =>
    if isBreak ch && !(ch == '\r' && r.head? == some '\n') then ⟨r, c.index + 1, c.line + 1, 0⟩
    else ⟨r, c.index + 1, c.line, if ch.toNat == 0xFEFF then c.column else c.column + 1⟩

/-- The position after `n` characters. -/
def forward : Nat → Cursor → Cursor
  | 0, c     => c
  | n + 1, c => forward n c.step

/-- The characters ahead that have a property. -/
def ahead (c : Cursor) (p : Char → Bool) : List Char := c.rest.takeWhile p

/-- The position after the characters that have a property. -/
def skip (c : Cursor) (p : Char → Bool) : Cursor := forward (c.ahead p).length c

/-- The position after spaces. -/
def skipSpaces (c : Cursor) : Cursor := c.skip (· == ' ')

/-- The position after a comment, if one starts here. -/
def skipComment (c : Cursor) : Cursor := if c.peek 0 == '#' then c.skip (!isBreakOrEnd ·) else c

/-- Reads a line end: the newline it stands for, or the separator that it is; nothing if there is none. -/
def lineBreak (c : Cursor) : List Char × Cursor :=
  let ch := c.peek 0
  if !isBreak ch then ([], c)
  else if ch.toNat == 0x2028 || ch.toNat == 0x2029 then ([ch], c.step)
  else if ch == '\r' && c.peek 1 == '\n' then (['\n'], c.step.step)
  else (['\n'], c.step)

/-- `---` or `...` stands here, by itself. -/
def atSeparator (c : Cursor) : Bool :=
  let s := c.rest.take 3
  (s == ['-', '-', '-'] || s == ['.', '.', '.']) && isBlankOrEnd (c.peek 3)

end Cursor

end ThreatModel.Yaml
