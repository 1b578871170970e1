import ThreatModel.Number.Binary64

/-!
# The text of a double

`Binary64.text` writes the fewest decimal digits that read back as the same double, and of those the nearest; a tie goes to
the even last digit.  The layout is `TextLayout`: positional while the decimal point stays within the bounds, else with an
exponent.  `Binary64.fixed2` writes two decimal places.

* `shortest`: the digits, found by trying grids of 1, 2, … 17 digits in exact arithmetic.
* `layOut`: digits laid out.
-/

namespace ThreatModel

/-- How a double is laid out. -/
structure TextLayout where
  /-- The least decimal exponent of the leading digit that is written positionally. -/
  minPositional : Int
  /-- The first decimal exponent of the leading digit that is written with an exponent again. -/
  maxPositional : Int
  /-- The least number of digits of a written exponent. -/
  exponentDigits : Nat

namespace Binary64

/-- Numbers are positional from 0.0001 up to below 10^16, and exponents have two digits at least. -/
def layout : TextLayout := ⟨-4, 16, 2⟩

/-- The numbers that round to a double: twice their numerators over a common denominator, and whether the ends count. -/
structure Interval where
  low : Nat
  value : Nat
  high : Nat
  denominator : Nat
  closed : Bool

/-- The interval of a positive double. -/
def interval (m : Nat) (e : Int) : Interval :=
  -- the gap below a power of two is half the gap above
  let narrow := m = Nat.pow 2 52 ∧ minExponent < e
  let (up, down) := if 0 ≤ e then (Nat.pow 2 e.toNat, 1) else (1, Nat.pow 2 (-e).toNat)
  { low := (if narrow then 4 * m - 1 else 4 * m - 2) * up
    value := 4 * m * up
    high := (4 * m + 2) * up
    denominator := 4 * down
    closed := m % 2 = 0 }

/-- `n / d` lies in the interval. -/
def Interval.contains (i : Interval) (n d : Nat) : Bool :=
  if i.closed then i.low * d ≤ n * i.denominator && n * i.denominator ≤ i.high * d
  else i.low * d < n * i.denominator && n * i.denominator < i.high * d

/-- The decimal exponent of the leading digit: the greatest `k` with `10 ^ k ≤ value`, looked for downwards from `k`. -/
def leadingExponent (value denominator : Nat) : Nat → Int → Int
  | 0, k        => k
  | fuel + 1, k =>
    let reached :=
      if 0 ≤ k then denominator * Nat.pow 10 k.toNat ≤ value else denominator ≤ value * Nat.pow 10 (-k).toNat
    if reached then k else leadingExponent value denominator fuel (k - 1)

/-- On the grid of step `10 ^ s`, the neighbour of the value that lies in the interval and is nearest. -/
def Interval.onGrid (i : Interval) (s : Int) : Option Nat :=
  let (a, b) := if 0 ≤ s then (1, Nat.pow 10 s.toNat) else (Nat.pow 10 (-s).toNat, 1)
  -- the grid point `d` is `d · b / a`
  let below := i.value * a / (i.denominator * b)
  let nearest := roundDiv (i.value * a) (i.denominator * b)
  let other := if nearest = below then below + 1 else below
  if i.contains (nearest * b) a then some nearest
  else if i.contains (other * b) a then some other
  else none

/-- The first grid that holds a point, from `n` digits on; the point and the exponent of its last digit. -/
def firstGrid (i : Interval) (top : Int) : Nat → Nat → Nat × Int
  | 0, n        => (0, top - n)
  | fuel + 1, n =>
    let s := top + 1 - n
    match i.onGrid s with
    | some d => (d, s)
    | none   => firstGrid i top fuel (n + 1)

/-- A number without the zeros at its end, and the exponent of its last digit. -/
def stripZeros : Nat → Nat → Int → Nat × Int
  | 0, d, s        => (d, s)
  | fuel + 1, d, s => if d ≠ 0 ∧ d % 10 = 0 then stripZeros fuel (d / 10) (s + 1) else (d, s)

/-- The shortest digits of a positive double and the exponent of the last one. -/
def shortest (m : Nat) (e : Int) : Nat × Int :=
  let i := interval m e
  let top := leadingExponent i.value i.denominator 700 309
  let (d, s) := firstGrid i top 17 1
  stripZeros 20 d s

/-- Digits and the exponent of the last one, laid out. -/
def layOut (l : TextLayout) (digits : Nat) (last : Int) : String :=
  let ds := Nat.repr digits
  let lead : Int := last + ds.length - 1
  if l.minPositional ≤ lead ∧ lead < l.maxPositional then
    if 0 ≤ last then ds ++ String.ofList (List.replicate last.toNat '0') ++ ".0"
    else if 0 ≤ lead then
      String.ofList (ds.toList.take (lead.toNat + 1)) ++ "." ++ String.ofList (ds.toList.drop (lead.toNat + 1))
    else "0." ++ String.ofList (List.replicate (-lead - 1).toNat '0') ++ ds
  else
    let mantissa :=
      match ds.toList with
      | []      => ""
      | [c]     => String.ofList [c]
      | c :: cs => String.ofList (c :: '.' :: cs)
    let k := Nat.repr lead.natAbs
    mantissa ++ "e" ++ (if lead < 0 then "-" else "+") ++
      String.ofList (List.replicate (l.exponentDigits - k.length) '0') ++ k

/-- The text of a double. -/
def text : Binary64 → String
  | nan                   => "nan"
  | infinity negative     => if negative then "-inf" else "inf"
  | finite negative m e   =>
    (if negative then "-" else "") ++
      if m = 0 then "0.0" else
        let (d, s) := shortest m e
        layOut layout d s

/-- The number with two decimal places. -/
def fixed2 : Binary64 → String
  | nan                 => "nan"
  | infinity negative   => if negative then "-inf" else "inf"
  | finite negative m e =>
    let h := hundredths m e
    let cents := Nat.repr (h % 100)
    (if negative then "-" else "") ++ Nat.repr (h / 100) ++ "." ++
      (if h % 100 < 10 then "0" else "") ++ cents

end Binary64

end ThreatModel
