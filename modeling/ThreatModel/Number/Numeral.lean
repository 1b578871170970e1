import ThreatModel.Number.Binary64
import ThreatModel.Text.Blank

/-!
# Numerals — reading a double from text

A numeral has an optional sign and then decimal digits with an optional point, on either side of which digits may be
missing, but not on both, and an optional exponent; or it is `inf`, `infinity` or `nan` in any case.

* `Numeral.read?`: the double that a numeral stands for.
* `Numeral.readLoose?`: the same with blanks around it and single underscores between digits.
-/

namespace ThreatModel.Numeral

/-- The number that ASCII digits write. -/
def digitsValue (ds : List Char) : Nat := ds.foldl (fun n c => 10 * n + (c.toNat - '0'.toNat)) 0

/-- An optional sign: whether it is a minus, and what follows. -/
def cutSign : List Char → Bool × List Char
  | '-' :: s => (true, s)
  | '+' :: s => (false, s)
  | s        => (false, s)

/-- An exponent, or nothing, up to the end. -/
def exponent? : List Char → Option Int
  | []     => some 0
  | c :: s =>
    if c = 'e' ∨ c = 'E' then
      let (negative, ds) := cutSign s
      if ds ≠ [] ∧ ds.all Char.isDigit then
        let n : Int := digitsValue ds
        some (if negative then -n else n)
      else none
    else none

/-- The double of an unsigned numeral. -/
def unsigned? (negative : Bool) (s : List Char) : Option Binary64 :=
  let low := String.ofList (s.map Char.toLower)
  if low = "inf" ∨ low = "infinity" then some (.infinity negative)
  else if low = "nan" then some .nan
  else
    let whole := s.takeWhile Char.isDigit
    let rest := s.dropWhile Char.isDigit
    let (places, rest) :=
      match rest with
      | '.' :: r => (r.takeWhile Char.isDigit, r.dropWhile Char.isDigit)
      | _        => ([], rest)
    if whole = [] ∧ places = [] then none
    else
      (exponent? rest).map fun e =>
        Binary64.ofDecimal negative (digitsValue (whole ++ places)) (e - places.length)

/-- The double that a numeral stands for. -/
def read? (s : List Char) : Option Binary64 :=
  let (negative, s) := cutSign s
  unsigned? negative s

/-- The text without underscores, if each of them stands between two digits; `before` is the character before the text. -/
def dropUnderscores? (before : Option Char) : List Char → Option (List Char)
  | []     => some []
  | c :: s =>
    if c = '_' then
      if (before.map Char.isDigit).getD false && (s.head?.map Char.isDigit).getD false then
        dropUnderscores? (some c) s
      else none
    else (dropUnderscores? (some c) s).map (c :: ·)

/-- A blank other than the separators U+001C–001F. -/
def isSpace (c : Char) : Bool := Text.isBlank c && !(28 ≤ c.toNat && c.toNat ≤ 31)

/-- The double that a numeral stands for, with blanks around it and single underscores between its digits. -/
def readLoose? (s : String) : Option Binary64 :=
  let inner := ((s.toList.dropWhile isSpace).reverse.dropWhile isSpace).reverse
  (dropUnderscores? none inner).bind read?

end ThreatModel.Numeral
