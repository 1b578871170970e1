import ThreatModel.Number.Numeral
import ThreatModel.Settings.Value
import ThreatModel.Yaml.Cursor

/-!
# Plain scalars — what an unquoted text means

An unquoted text may be null, a truth value, a number, a date, or one of the keys `<<` and `=`; any other is a text.  Numbers
are decimal, octal after `0`, hexadecimal after `0x`, binary after `0b`, or in base 60 with colons; underscores between
digits do not count.

* `kindOf`: what an unquoted text is.
* `int`, `float`, `date`, `truth`: what a text of a kind stands for, or why for nothing.
-/

namespace ThreatModel.Yaml

/-- The kinds of scalars. -/
inductive ScalarKind where
  | null
  | bool
  | int
  | float
  | date
  | merge
  | default
  | text
deriving DecidableEq, Repr

namespace Plain

/-- A digit or an underscore. -/
def isDigitMark (c : Char) : Bool := c.isDigit || c == '_'

/-- The text after an optional sign. -/
def afterSign (s : List Char) : List Char := (Numeral.cutSign s).2

/-- Nothing, or an exponent with a sign. -/
def isExponent : List Char → Bool
  | []          => true
  | e :: g :: ds => (e == 'e' || e == 'E') && (g == '+' || g == '-') && ds ≠ [] && ds.all Char.isDigit
  | _           => false

/-- What follows groups of one or two digits after colons, of which there must be one; the groups are below 60. -/
def afterGroups? : List Char → Option (List Char)
  | ':' :: a :: s =>
    if a.isDigit then
      match s with
      | b :: t =>
        if a ≤ '5' && b.isDigit then (afterGroups? t).or (some t)
        else (afterGroups? (b :: t)).or (some (b :: t))
      | []     => some []
    else none
  | _ => none
termination_by s => s.length

/-- A number with a point, a number in base 60 with a point, an infinity, or no number. -/
def isFloat (s : List Char) : Bool :=
  let u := afterSign s
  let digits := u.takeWhile isDigitMark
  let rest := u.dropWhile isDigitMark
  let opened := (u.head?.map Char.isDigit).getD false
  (opened && (match rest with
    | '.' :: r => isExponent (r.dropWhile isDigitMark)
    | _        => false)) ||
  (match s with
    | '.' :: c :: r => c.isDigit && isExponent (r.dropWhile isDigitMark)
    | _             => false) ||
  (opened && digits ≠ [] && (match afterGroups? rest with
    | some ('.' :: r) => r.all isDigitMark
    | _               => false)) ||
  u = ".inf".toList || u = ".Inf".toList || u = ".INF".toList ||
  s = ".nan".toList || s = ".NaN".toList || s = ".NAN".toList

/-- A binary digit or an underscore. -/
def isBinaryMark (c : Char) : Bool := c == '0' || c == '1' || c == '_'

/-- An octal digit or an underscore. -/
def isOctalMark (c : Char) : Bool := ('0' ≤ c && c ≤ '7') || c == '_'

/-- A hexadecimal digit or an underscore. -/
def isHexMark (c : Char) : Bool := c.isDigit || ('a' ≤ c && c ≤ 'f') || ('A' ≤ c && c ≤ 'F') || c == '_'

/-- An integer in one of the five notations. -/
def isInt (s : List Char) : Bool :=
  match afterSign s with
  | '0' :: 'b' :: r => r ≠ [] && r.all isBinaryMark
  | '0' :: 'x' :: r => r ≠ [] && r.all isHexMark
  | '0' :: r        => r.all isOctalMark
  | c :: r          =>
    c.isDigit &&
      (match r.dropWhile isDigitMark with
       | []   => true
       | rest => afterGroups? rest = some [])
  | []              => false

/-- Digits of a number between `least` and `most`, and what follows. -/
def digits? (least most : Nat) (s : List Char) : Option (List Char) :=
  let n := ((s.take most).takeWhile Char.isDigit).length
  if least ≤ n then some (s.drop n) else none

/-- What follows a character. -/
def after? (c : Char) : List Char → Option (List Char)
  | d :: s => if c = d then some s else none
  | []     => none

/-- A time of day with fractions of a second and a zone, both optional, up to the end. -/
def isTime (s : List Char) : Bool :=
  let clock := do
    let s ← digits? 1 2 s
    let s ← after? ':' s
    let s ← digits? 2 2 s
    let s ← after? ':' s
    digits? 2 2 s
  match clock with
  | none   => false
  | some s =>
    let s := match s with
      | '.' :: r => r.dropWhile Char.isDigit
      | _        => s
    let zone := s.dropWhile fun c => c == ' ' || c == '\t'
    s = [] || zone = ['Z'] ||
      (match zone with
       | g :: r =>
         (g == '+' || g == '-') &&
           (match digits? 1 2 r with
            | some []         => true
            | some (':' :: t) => digits? 2 2 t = some []
            | _               => false)
       | []     => false)

/-- What follows a date whose month and day may have one digit. -/
def afterDate? (s : List Char) : Option (List Char) := do
  let s ← digits? 4 4 s
  let s ← after? '-' s
  let s ← digits? 1 2 s
  let s ← after? '-' s
  digits? 1 2 s

/-- A date, perhaps with a time. -/
def isDate (s : List Char) : Bool :=
  let strict := do
    let s ← digits? 4 4 s
    let s ← after? '-' s
    let s ← digits? 2 2 s
    let s ← after? '-' s
    digits? 2 2 s
  strict = some [] ||
    (match afterDate? s with
     | some ('T' :: t) => isTime t
     | some ('t' :: t) => isTime t
     | some (c :: t)   =>
       (c == ' ' || c == '\t') && isTime (t.dropWhile fun c => c == ' ' || c == '\t')
     | _               => false)

/-- The spellings of true. -/
def trueWords : List String := ["yes", "Yes", "YES", "true", "True", "TRUE", "on", "On", "ON"]

/-- The spellings of false. -/
def falseWords : List String := ["no", "No", "NO", "false", "False", "FALSE", "off", "Off", "OFF"]

/-- The spellings of null. -/
def nullWords : List String := ["", "~", "null", "Null", "NULL"]

/-- What an unquoted text is. -/
def kindOf (s : String) : ScalarKind :=
  if s ∈ trueWords || s ∈ falseWords then .bool
  else if isFloat s.toList then .float
  else if isInt s.toList then .int
  else if s = "<<" then .merge
  else if s ∈ nullWords then .null
  else if isDate s.toList then .date
  else if s = "=" then .default
  else .text

/-- A text cut at colons. -/
def cutAtColons : List Char → List (List Char)
  | []     => [[]]
  | c :: s =>
    if c = ':' then [] :: cutAtColons s
    else
      match cutAtColons s with
      | p :: ps => (c :: p) :: ps
      | []      => [[c]]

/-- The value of a digit in bases up to 16. -/
def digitOf (c : Char) : Nat :=
  if c.isDigit then c.toNat - '0'.toNat
  else if 'a' ≤ c && c ≤ 'f' then c.toNat - 'a'.toNat + 10
  else c.toNat - 'A'.toNat + 10

/-- The number that digits write in a base. -/
def inBase (base : Nat) (ds : List Char) : Nat := ds.foldl (fun n c => base * n + digitOf c) 0

/-- The most decimal digits of a number. -/
def maxDigits : Nat := 4300

/-- The runs of digits in a text. -/
def digitRuns : List Char → List (List Char)
  | []     => []
  | c :: s =>
    if c.isDigit then
      match s, digitRuns s with
      | d :: _, r :: rs => if d.isDigit then (c :: r) :: rs else [c] :: r :: rs
      | _,      rs      => [c] :: rs
    else digitRuns s

/-- The integer of a text. -/
def int (s : List Char) : Except Fault Int :=
  let s := s.filter (· ≠ '_')
  let (negative, u) := Numeral.cutSign s
  let signed (n : Nat) : Except Fault Int := .ok (if negative then -n else n)
  match u with
  | []              => .error .emptyNumber
  | '0' :: 'b' :: r => if r ≠ [] ∧ r.all isBinaryMark then signed (inBase 2 r) else .error .noNumber
  | '0' :: 'x' :: r => if r ≠ [] ∧ r.all isHexMark then signed (inBase 16 r) else .error .noNumber
  | '0' :: r        => if r.all isOctalMark then signed (inBase 8 r) else .error .noNumber
  | _               =>
    let groups := cutAtColons u
    if groups.any fun g => g = [] || !g.all Char.isDigit then .error .noNumber
    else if groups.any fun g => maxDigits < g.length then .error .tooManyDigits
    else signed (groups.foldl (fun n g => 60 * n + inBase 10 g) 0)

/-- The groups of a number in base 60; the next power of 60 is no double. -/
def maxGroups : Nat := 174

/-- The double of a text. -/
def float (s : List Char) : Except Fault Binary64 :=
  let low := (s.filter (· ≠ '_')).map Char.toLower
  let (negative, u) := Numeral.cutSign low
  if low = [] then .error .emptyNumber
  else if u = ".inf".toList then .ok (.infinity negative)
  else if u = ".nan".toList then .ok .nan
  else
    match cutAtColons u with
    | [_]    =>
      match Numeral.unsigned? negative u with
      | some x => .ok x
      | none   => .error .noNumber
    | groups =>
      let places := (u.dropWhile (· ≠ '.')).drop 1
      let scale := Nat.pow 10 places.length
      if !(isFloat s || isInt s) then .error .noNumber
      else if maxGroups < groups.length then .error .tooManyGroups
      else
        let n := groups.foldl
          (fun n g => 60 * n + scale * inBase 10 (g.takeWhile (· ≠ '.'))) 0 + inBase 10 places
        .ok (.ofRatio negative n scale)

/-- The truth value of a text. -/
def truth (s : String) : Except Fault Bool :=
  let low := String.ofList (s.toList.map Char.toLower)
  if low ∈ trueWords then .ok true
  else if low ∈ falseWords then .ok false
  else .error .unknownTruth

/-- The number of days in a month. -/
def daysIn (year month : Nat) : Nat :=
  if month = 2 then (if year % 4 = 0 ∧ (year % 100 ≠ 0 ∨ year % 400 = 0) then 29 else 28)
  else if month ∈ [4, 6, 9, 11] then 30
  else 31

/-- There is such a day. -/
def isDay (year month day : Nat) : Bool :=
  1 ≤ year && 1 ≤ month && month ≤ 12 && 1 ≤ day && day ≤ daysIn year month

/-- There is such a time of day. -/
def isClock (hour minute second : Nat) : Bool := hour < 24 && minute < 60 && second < 60

/-- A zone is less than a day away. -/
def isZone : List Nat → Bool
  | h :: m => h * 60 + m.headD 0 < 24 * 60
  | []     => true

/-- The date and time of a text as it is written. -/
def date (s : List Char) : Except Fault Value :=
  if !(isDate s || afterDate? s = some []) then .error .noDate
  else
    let isSign (c : Char) : Bool := c == '+' || c == '-'
    let numbers (s : List Char) : List Nat := (digitRuns s).map (inBase 10)
    let isDatePart (c : Char) : Bool := c.isDigit || c == '-'
    let clock := s.dropWhile isDatePart
    let zone := numbers (clock.dropWhile (!isSign ·))
    match numbers (s.takeWhile isDatePart), numbers (clock.takeWhile (!isSign ·)) with
    | [y, m, d], []               => if isDay y m d then .ok (.date (String.ofList s)) else .error .impossibleDate
    | [y, m, d], h :: mi :: s' :: _ =>
      if isDay y m d && isClock h mi s' && isZone zone then .ok (.date (String.ofList s)) else .error .impossibleDate
    | _, _                        => .error .noDate

end Plain

end ThreatModel.Yaml
