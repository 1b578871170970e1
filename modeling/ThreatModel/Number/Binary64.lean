/-!
# Double precision numbers, exactly

A double is kept as the data it stands for: a sign, a significand and a power of two.  All arithmetic here is on natural
numbers and exact; a result is rounded once, to the nearest double, a tie to the even significand.

* `roundDiv`: the integer nearest to a quotient, a tie to the even one; `two_mul_roundDiv_le` bounds it by one half above.
* `Binary64.ofRatio`: the double nearest to a quotient.
* `Binary64.ofDecimal`: the double nearest to a decimal number.
* `Binary64.scaled`: a magnitude times a number, as an exact quotient.
-/

namespace ThreatModel

/-- The integer nearest to `n / d`, of two nearest ones the even one. -/
def roundDiv (n d : Nat) : Nat :=
  let q := n / d
  let r := n % d
  if d < 2 * r ∨ (d = 2 * r ∧ q % 2 = 1) then q + 1 else q

/-- The rounded quotient is at most one half above. -/
theorem two_mul_roundDiv_le {n d : Nat} (hd : 0 < d) : 2 * (d * roundDiv n d) ≤ 2 * n + d := by
  have h := Nat.div_add_mod n d
  have hm := Nat.mod_lt n hd
  simp only [roundDiv]
  split
  · rename_i hr
    rw [Nat.mul_add]
    omega
  · omega

/-- A double: not a number, an infinity, or `± significand · 2 ^ exponent`. -/
inductive Binary64 where
  | nan
  | infinity (negative : Bool)
  | finite (negative : Bool) (significand : Nat) (exponent : Int)
deriving DecidableEq, Repr

namespace Binary64

/-- The least exponent. -/
def minExponent : Int := -1074

/-- The greatest exponent of a finite double. -/
def maxExponent : Int := 971

/-- A zero with a sign. -/
def zero (negative : Bool) : Binary64 := finite negative 0 minExponent

/-- The quotient `n / (d · 2 ^ e)` as a fraction of natural numbers. -/
def scaleDown (n d : Nat) (e : Int) : Nat × Nat :=
  if 0 ≤ e then (n, d * Nat.pow 2 e.toNat) else (n * Nat.pow 2 (-e).toNat, d)

/-- The exponent at which the quotient has 53 binary digits, but never less than `minExponent`. -/
def exponentOf (n d : Nat) : Int :=
  let e : Int := n.log2 - d.log2 - 52
  let (a, b) := scaleDown n d e
  let e := if a < Nat.pow 2 52 * b then e - 1 else e
  if e < minExponent then minExponent else e

/-- The double nearest to `± n / d`: an infinity from half a step above the greatest finite double on. -/
def ofRatio (negative : Bool) (n d : Nat) : Binary64 :=
  if n = 0 then zero negative
  else
    let e := exponentOf n d
    let (a, b) := scaleDown n d e
    let m := roundDiv a b
    let (m, e) := if m = Nat.pow 2 53 then (Nat.pow 2 52, e + 1) else (m, e)
    if maxExponent < e then infinity negative
    else finite negative m (if m = 0 then minExponent else e)

/-- The double nearest to an integer. -/
def ofInt (i : Int) : Binary64 := ofRatio (i < 0) i.natAbs 1

/-- The double nearest to `± digits · 10 ^ exponent`. -/
def ofDecimal (negative : Bool) (digits : Nat) (exponent : Int) : Binary64 :=
  if digits = 0 then zero negative
  else if 400 < exponent then infinity negative
  else if exponent + (Nat.repr digits).length < -400 then zero negative
  else if 0 ≤ exponent then ofRatio negative (digits * Nat.pow 10 exponent.toNat) 1
  else ofRatio negative digits (Nat.pow 10 (-exponent).toNat)

/-- `significand · 2 ^ exponent · k` as a fraction. -/
def scaled (significand : Nat) (exponent : Int) (k : Nat) : Nat × Nat :=
  if 0 ≤ exponent then (significand * Nat.pow 2 exponent.toNat * k, 1)
  else (significand * k, Nat.pow 2 (-exponent).toNat)

/-- The magnitude in hundredths, rounded. -/
def hundredths (significand : Nat) (exponent : Int) : Nat :=
  let (a, b) := scaled significand exponent 100
  roundDiv a b

/-- The double nearest to the number rounded to two decimal places. -/
def roundHundredths : Binary64 → Binary64
  | finite negative m e => ofRatio negative (hundredths m e) 100
  | x                   => x

end Binary64

end ThreatModel
