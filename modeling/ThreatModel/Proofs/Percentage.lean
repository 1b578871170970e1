import Mathlib.Algebra.GroupWithZero.Nat
import ThreatModel.Percentage
import ThreatModel.Report.Basic

/-!
# Percentages — a share of a whole is printed as at most 100.00

A percentage is rounded three times: the quotient to a double, the double to hundredths, and the
hundredths to a double again, which is printed with two places.  Each rounding goes to the nearest
number of a grid on which 100 lies, and so none of them leaves the numbers from 0 to 100
(`isShare_ofRatio`, `hundredths_le`).

* `percent_of_le`: what is printed of a part of a whole.
-/

namespace ThreatModel

/-- A quotient is not rounded past an integer. -/
theorem roundDiv_le {a b n : Nat} (hb : 0 < b) (h : a ≤ n * b) : roundDiv a b ≤ n := by
  have hround := two_mul_roundDiv_le (n := a) hb
  have hle : b * (2 * roundDiv a b) ≤ b * (2 * n + 1) :=
    calc b * (2 * roundDiv a b) = 2 * (b * roundDiv a b) := Nat.mul_left_comm ..
      _ ≤ 2 * a + b := hround
      _ ≤ 2 * (b * n) + b := by rw [Nat.mul_comm b n]; omega
      _ = b * (2 * n + 1) := by rw [Nat.mul_add, Nat.mul_one, Nat.mul_left_comm]
  have hq := Nat.le_of_mul_le_mul_left hle hb
  omega

namespace Binary64

/-- A number from 0 to 100. -/
def IsShare (x : Binary64) : Prop :=
  ∃ m e, x = finite false m e ∧ e ≤ 0 ∧ m ≤ 100 * 2 ^ (-e).toNat

/-- A double up to 100 has 45 binary places or more. -/
theorem exponentOf_le {n d : Nat} (hn : n ≠ 0) (h : n ≤ 100 * d) :
    exponentOf n d ≤ -45 := by
  have hlog : n.log2 < d.log2 + 8 := by
    refine (Nat.log2_lt hn).mpr ?_
    calc n ≤ 100 * d := h
      _ < 2 ^ 7 * 2 ^ (d.log2 + 1) := by
        have := Nat.lt_log2_self (n := d)
        omega
      _ = 2 ^ (d.log2 + 8) := by rw [← Nat.pow_add]; congr 1; omega
  simp only [exponentOf, minExponent]
  split <;> split <;> omega

theorem isShare_ofRatio {n d : Nat} (hd : 0 < d) (h : n ≤ 100 * d) :
    (ofRatio false n d).IsShare := by
  by_cases hn : n = 0
  · subst hn
    exact ⟨0, minExponent, rfl, by decide, Nat.zero_le _⟩
  have he := exponentOf_le hn h
  have hscale : ∀ k, roundDiv (n * 2 ^ k) d ≤ 100 * 2 ^ k := fun k => roundDiv_le hd <|
    calc n * 2 ^ k ≤ 100 * d * 2 ^ k := Nat.mul_le_mul_right _ h
      _ = 100 * 2 ^ k * d := Nat.mul_right_comm ..
  have hm := hscale (-exponentOf n d).toNat
  have hneg : ¬ 0 ≤ exponentOf n d := by omega
  simp only [ofRatio, if_neg hn, scaleDown, if_neg hneg]
  generalize exponentOf n d = e at he hm
  have hpow : ∀ k, Nat.pow 2 k = 2 ^ k := fun _ => rfl
  simp only [hpow]
  generalize roundDiv (n * 2 ^ (-e).toNat) d = m at hm ⊢
  by_cases hcarry : m = 2 ^ 53
  · -- one digit more, and the double is the same
    have hk : (-e).toNat = (-(e + 1)).toNat + 1 := by omega
    rw [hk, Nat.pow_succ] at hm
    simp only [if_pos hcarry]
    refine ⟨2 ^ 52, e + 1, ?_, by omega, by omega⟩
    rw [if_neg (by simp only [maxExponent]; omega)]
    rfl
  · simp only [if_neg hcarry]
    rw [if_neg (by simp only [maxExponent]; omega)]
    by_cases hzero : m = 0
    · exact ⟨0, minExponent, by simp [hzero], by decide, Nat.zero_le _⟩
    · exact ⟨m, e, by simp [hzero], by omega, hm⟩

theorem hundredths_le {m : Nat} {e : Int} (he : e ≤ 0) (h : m ≤ 100 * 2 ^ (-e).toNat) :
    hundredths m e ≤ 10000 := by
  rcases Int.lt_or_eq_of_le he with he | rfl
  · rw [hundredths, scaled, if_neg (Int.not_le.mpr he)]
    refine roundDiv_le (Nat.two_pow_pos _) ?_
    calc m * 100 ≤ 100 * 2 ^ (-e).toNat * 100 := Nat.mul_le_mul_right _ h
      _ = 10000 * 2 ^ (-e).toNat := by rw [Nat.mul_right_comm]
  · refine roundDiv_le Nat.one_pos ?_
    have hm : m ≤ 100 := h
    show m * 1 * 100 ≤ 10000 * 1
    omega

theorem IsShare.roundHundredths {x : Binary64} (h : x.IsShare) : x.roundHundredths.IsShare := by
  obtain ⟨m, e, rfl, he, hm⟩ := h
  exact isShare_ofRatio (by decide) (hundredths_le he hm)

end Binary64

namespace Report

/-- A number of hundredths, with two places. -/
def inHundredths (h : Nat) : String :=
  Nat.repr (h / 100) ++ "." ++ (if h % 100 < 10 then "0" else "") ++ Nat.repr (h % 100)

/-- **A part of a whole is printed as a percentage from 0.00 to 100.00.** -/
theorem percent_of_le {part whole : Nat} (h : part ≤ whole) :
    ∃ h, h ≤ 10000 ∧ percent (percentage part whole) = inHundredths h := by
  by_cases hwhole : whole = 0
  · subst hwhole
    refine ⟨0, Nat.zero_le _, ?_⟩
    rw [Int.natCast_zero, percentage_zero]
    decide +kernel
  have hpos := Nat.pos_of_ne_zero hwhole
  have hshare : (Binary64.ofRatio false (100 * part) whole).IsShare :=
    Binary64.isShare_ofRatio hpos (Nat.mul_le_mul_left 100 h)
  obtain ⟨m, e, hround, he, hm⟩ := hshare.roundHundredths
  refine ⟨Binary64.hundredths m e, Binary64.hundredths_le he hm, ?_⟩
  obtain ⟨m', e', hfinite, -⟩ := hshare
  rw [hfinite] at hround
  have hsign : ∀ k : Nat, decide ((k : Int) < 0) = false := fun k =>
    decide_eq_false (Int.not_lt.mpr (Int.natCast_nonneg k))
  have hpercentage : percentage part whole = .ok (.finite false m e) := by
    rw [percentage, if_neg (by omega)]
    simp only [hsign, bne_self_eq_false, Int.natAbs_natCast, hfinite, hround]
  rw [hpercentage, percent, Binary64.fixed2, inHundredths]
  simp

end Report

end ThreatModel
