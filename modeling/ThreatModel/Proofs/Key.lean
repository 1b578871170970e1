import Mathlib.Data.List.Basic
import ThreatModel.Key

/-!
# Keys — a name is put into its normal form character by character

Lower-casing looks around: a capital sigma becomes one of two letters by its neighbours, and some
characters become several.  Neither sigma is in a–z, so of what the context decides nothing reaches
the key, and a key is made of what each character contributes alone (`keyOf_eq`).  Hence keys are
joined as names are (`keyOf_append`), and the texts of a–z and 0–9 are those that are their own keys
(`keyOf_eq_self_iff`).
-/

namespace ThreatModel

variable {c : Char}

theorem isKeyChar_iff : isKeyChar c = true ↔ ('a' ≤ c ∧ c ≤ 'z') ∨ '0' ≤ c ∧ c ≤ '9' := by
  simp only [isKeyChar, Bool.or_eq_true, Bool.and_eq_true, decide_eq_true_eq]

theorem ascii_of_isKeyChar (h : isKeyChar c = true) : c.toNat < 0x80 := by
  rcases isKeyChar_iff.mp h with hletter | hdigit
  · exact Nat.lt_of_le_of_lt (UInt32.le_iff_toNat_le.mp hletter.2) (by decide)
  · exact Nat.lt_of_le_of_lt (UInt32.le_iff_toNat_le.mp hdigit.2) (by decide)

/-- What a character contributes to a key. -/
def keyChars (c : Char) : List Char := (Text.lowerChar c).filter isKeyChar

/-- A letter a–z or a digit contributes itself. -/
theorem keyChars_of_isKeyChar (h : isKeyChar c = true) : keyChars c = [c] := by
  have hall : ∀ n < 0x80, isKeyChar (Char.ofNat n) = true →
      keyChars (Char.ofNat n) = [Char.ofNat n] := by decide +kernel
  have hc := hall c.toNat (ascii_of_isKeyChar h)
  rw [Char.ofNat_toNat] at hc
  exact hc h

/-- **What stands around a character makes no difference to a key.** -/
theorem filter_lowerAfter (before s : List Char) :
    (Text.lowerAfter before s).filter isKeyChar = s.flatMap keyChars := by
  induction s generalizing before with
  | nil => rfl
  | cons c s ih =>
      rw [Text.lowerAfter, List.filter_append, ih, List.flatMap_cons]
      refine congrArg (· ++ _) ?_
      by_cases hsigma : c.toNat = 0x3A3
      · -- whichever sigma it becomes, and by itself too, it contributes nothing
        obtain rfl : Char.ofNat 0x3A3 = c := hsigma ▸ Char.ofNat_toNat c
        have hnone : keyChars (Char.ofNat 0x3A3) = [] := by decide +kernel
        rw [hnone, if_pos (by decide)]
        split <;> decide
      · rw [if_neg (by simpa using hsigma), keyChars]

/-- **A key is made of what each character contributes.** -/
theorem keyOf_eq (name : String) : keyOf name = String.ofList (name.toList.flatMap keyChars) := by
  rw [keyOf, Text.lower, filter_lowerAfter]

theorem keyOf_append (name name' : String) : keyOf (name ++ name') = keyOf name ++ keyOf name' := by
  rw [keyOf_eq, keyOf_eq, keyOf_eq, String.toList_append, List.flatMap_append, String.ofList_append]

/-- The texts of a–z and 0–9 are those that are their own keys. -/
theorem keyOf_eq_self_iff {name : String} :
    keyOf name = name ↔ ∀ c ∈ name.toList, isKeyChar c = true := by
  constructor
  · intro h c hc
    exact keyOf_chars (h.symm ▸ hc)
  · intro h
    have hself : name.toList.flatMap keyChars = name.toList.flatMap fun c => [c] :=
      List.flatMap_congr fun c hc => keyChars_of_isKeyChar (h c hc)
    rw [keyOf_eq, hself, List.flatMap_singleton', String.ofList_toList]

end ThreatModel
