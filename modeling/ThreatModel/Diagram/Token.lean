import ThreatModel.Text.Lower

/-!
# Tokens of DOT

An identifier stands bare if it is a name or a number and no keyword, and as it is if it is an HTML-like text `<…>`; any
other is put in double quotes, and a backslash goes before each quote in it that has none of its own.  Both kinds of bare
texts may end in a newline.

* `token`: how an identifier is written.
* `endpoint`: how the end of an edge is written, which may name a port and a compass point.
* `escapeHtml`: how a text stands in an HTML-like label.
-/

namespace ThreatModel.Dot

/-- An ASCII letter or underscore. -/
def isNameStart (c : Char) : Bool := c.isAlpha || c == '_'

/-- An ASCII letter, digit or underscore. -/
def isNameChar (c : Char) : Bool := c.isAlphanum || c == '_'

/-- The text without the one newline at its end. -/
def withoutNewline (s : List Char) : List Char := if s.getLast? = some '\n' then s.dropLast else s

/-- A name of letters, digits and underscores that starts with no digit. -/
def isName : List Char → Bool
  | []     => false
  | c :: s => isNameStart c && s.all isNameChar

/-- Digits with a point in front, or digits that may have a point and digits behind. -/
def isUnsigned (s : List Char) : Bool :=
  let whole := s.takeWhile Char.isDigit
  match s.dropWhile Char.isDigit with
  | []        => whole ≠ []
  | '.' :: fs => fs.all Char.isDigit && (whole ≠ [] || fs ≠ [])
  | _         => false

/-- A number with an optional minus. -/
def isNumeral : List Char → Bool
  | '-' :: s => isUnsigned s
  | s        => isUnsigned s

/-- The keywords of the language, in lower case. -/
def keywords : List String := ["node", "edge", "graph", "digraph", "subgraph", "strict"]

/-- A keyword in any case. -/
def isKeyword (s : List Char) : Bool := keywords.any fun k => k.toList = Text.lower s

/-- An HTML-like text: it is enclosed in `<` and `>`. -/
def isHtmlLike (s : List Char) : Bool :=
  s.head? == some '<' && 2 ≤ (withoutNewline s).length && (withoutNewline s).getLast? == some '>'

/-- A name or number that needs no quotes. -/
def isBare (s : List Char) : Bool :=
  (isName (withoutNewline s) || isNumeral (withoutNewline s)) && !isKeyword s

/-- Puts a backslash before every quote that has none; `run` backslashes stand before the text. -/
def escapeQuotesAfter (run : Nat) : List Char → List Char
  | []        => List.replicate run '\\'
  | '\\' :: s => escapeQuotesAfter (run + 1) s
  | '"' :: s  => List.replicate (run - run % 2 + 1) '\\' ++ '"' :: escapeQuotesAfter 0 s
  | c :: s    => List.replicate run '\\' ++ c :: escapeQuotesAfter 0 s

/-- The text with a backslash before every quote. -/
def escapeQuotes (s : List Char) : List Char := escapeQuotesAfter 0 s

/-- An identifier or value as a token. -/
def token (s : String) : String :=
  if isHtmlLike s.toList || isBare s.toList then s
  else String.ofList ('"' :: escapeQuotes s.toList ++ ['"'])

/-- A text cut at its first colon. -/
def cutAtColon (s : String) : String × String :=
  (String.ofList (s.toList.takeWhile (· ≠ ':')), String.ofList ((s.toList.dropWhile (· ≠ ':')).drop 1))

/-- The end of an edge: a node, perhaps a port after a colon, perhaps a compass point after another. -/
def endpoint (s : String) : String :=
  let (node, rest) := cutAtColon s
  if rest = "" then token node
  else
    let (port, compass) := cutAtColon rest
    String.intercalate ":" ([token node, token port] ++ if compass = "" then [] else [compass])

/-- How a character stands in an HTML-like text. -/
def escapeHtmlChar : Char → String
  | '&'  => "&amp;"
  | '<'  => "&lt;"
  | '>'  => "&gt;"
  | '\'' => "&#39;"
  | '"'  => "&#34;"
  | c    => String.ofList [c]

/-- How a text stands in an HTML-like text. -/
def escapeHtml (s : String) : String := String.join (s.toList.map escapeHtmlChar)

end ThreatModel.Dot
