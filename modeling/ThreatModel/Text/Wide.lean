import ThreatModel.Text.Blank

/-!
# Wide texts — texts with halves of characters

A code point is a number below 0x110000.  The numbers of the characters are code points; those from 0xD800 to 0xDFFF are
the others, halves of characters, and no encoding writes them.  A wide text is made of code points.  `wide` makes one of a
text, and `narrow?` gives the text back if no half is in it.

* `CodePoint.char?_eq_none_iff`: the code points that are no characters are the halves.
* `narrow?_eq_some_iff`: the wide texts that are texts.
-/

namespace ThreatModel

/-- A character, or half of one. -/
structure CodePoint where
  value : Nat
  value_lt : value < 0x110000
deriving DecidableEq, Repr

namespace CodePoint

theorem toNat_lt (c : Char) : c.toNat < 0x110000 := by
  rcases c.valid with h | h
  · exact Nat.lt_trans h (by decide)
  · exact h.2

/-- The code point of a character. -/
def ofChar (c : Char) : CodePoint := ⟨c.toNat, toNat_lt c⟩

/-- The code point of a number. -/
def ofNat? (n : Nat) : Option CodePoint := if h : n < 0x110000 then some ⟨n, h⟩ else none

/-- The character, if it is a whole one. -/
def char? (p : CodePoint) : Option Char :=
  if h : p.value.isValidChar then some (Char.ofNatAux p.value h) else none

/-- Half of a character. -/
def IsHalf (p : CodePoint) : Prop := 0xD800 ≤ p.value ∧ p.value < 0xE000

instance (p : CodePoint) : Decidable p.IsHalf := inferInstanceAs (Decidable (_ ∧ _))

/-- A blank character. -/
def isBlank (p : CodePoint) : Bool := (p.char?.map Text.isBlank).getD false

@[simp] theorem char?_ofChar (c : Char) : (ofChar c).char? = some c := by
  exact dif_pos c.valid

theorem char?_eq_some_iff {p : CodePoint} {c : Char} : p.char? = some c ↔ p = ofChar c := by
  constructor
  · intro h
    rw [char?] at h
    by_cases hvalid : p.value.isValidChar
    · rw [dif_pos hvalid] at h
      cases h
      rfl
    · rw [dif_neg hvalid] at h
      cases h
  · rintro rfl
    exact char?_ofChar c

/-- The code points that are no characters are the halves. -/
theorem char?_eq_none_iff {p : CodePoint} : p.char? = none ↔ p.IsHalf := by
  have hlt := p.value_lt
  have hhalf : p.IsHalf ↔ ¬ p.value.isValidChar := by
    rw [IsHalf, Nat.isValidChar]
    omega
  rw [hhalf, char?]
  by_cases hvalid : p.value.isValidChar
  · rw [dif_pos hvalid]
    exact ⟨fun h => absurd h (Option.some_ne_none _), fun h => absurd hvalid h⟩
  · rw [dif_neg hvalid]
    exact ⟨fun _ => hvalid, fun _ => rfl⟩

end CodePoint

namespace Text

/-- A text of code points. -/
abbrev Wide : Type := List CodePoint

/-- A text as a wide one. -/
def wide (s : String) : Wide := s.toList.map CodePoint.ofChar

/-- The text, if no half of a character is in it. -/
def narrow? (w : Wide) : Option String := (w.mapM CodePoint.char?).map String.ofList

/-- The text before the first half of a character. -/
def wholePart (w : Wide) : String := String.ofList ((w.takeWhile fun p => p.char?.isSome).filterMap CodePoint.char?)

/-- The wide text without the blanks at its two ends. -/
def trimWide (w : Wide) : Wide := ((w.dropWhile CodePoint.isBlank).reverse.dropWhile CodePoint.isBlank).reverse

/-- The wide text if it is given and not empty, else the one that stands in for it. -/
def wideOr (w : Option Wide) (standIn : Wide) : Wide := (w.filter (· ≠ [])).getD standIn

theorem mapM_char?_ofChar (s : List Char) : (s.map CodePoint.ofChar).mapM CodePoint.char? = some s := by
  induction s with
  | nil => rfl
  | cons c s ih => simp [List.mapM_cons, ih]

theorem eq_of_mapM_char? {w : Wide} {s : List Char} (h : w.mapM CodePoint.char? = some s) :
    w = s.map CodePoint.ofChar := by
  induction w generalizing s with
  | nil =>
    cases h
    rfl
  | cons p w ih =>
    simp only [List.mapM_cons, Option.bind_eq_bind, Option.bind_eq_some_iff, Option.pure_def] at h
    obtain ⟨c, hc, t, ht, hs⟩ := h
    cases hs
    rw [List.map_cons, ← ih ht, CodePoint.char?_eq_some_iff.mp hc]

/-- **The wide texts that are texts.** -/
theorem narrow?_eq_some_iff {w : Wide} {s : String} : narrow? w = some s ↔ w = wide s := by
  rw [narrow?, wide, Option.map_eq_some_iff]
  constructor
  · rintro ⟨cs, hcs, rfl⟩
    rw [String.toList_ofList]
    exact eq_of_mapM_char? hcs
  · rintro rfl
    exact ⟨s.toList, mapM_char?_ofChar s.toList, String.ofList_toList⟩

@[simp] theorem narrow?_wide (s : String) : narrow? (wide s) = some s := narrow?_eq_some_iff.mpr rfl

/-- A wide text is no text exactly if half of a character is in it. -/
theorem narrow?_eq_none_iff {w : Wide} : narrow? w = none ↔ ∃ p ∈ w, p.IsHalf := by
  rw [narrow?, Option.map_eq_none_iff]
  induction w with
  | nil => simp
  | cons p w ih =>
    rw [List.mapM_cons]
    cases hp : p.char? with
    | none => simp [CodePoint.char?_eq_none_iff.mp hp]
    | some c =>
      have hwhole : ¬ p.IsHalf := fun h => by
        rw [CodePoint.char?_eq_none_iff.mpr h] at hp
        cases hp
      cases hw : w.mapM CodePoint.char? <;> simp_all

/-- No half of a character is in a text. -/
theorem not_exists_isHalf_wide (s : String) : ¬ ∃ p ∈ wide s, p.IsHalf := by
  rw [← narrow?_eq_none_iff, narrow?_wide]
  exact Option.some_ne_none s

theorem wide_eq_nil_iff {s : String} : wide s = [] ↔ s = "" := by
  rw [wide, List.map_eq_nil_iff, String.toList_eq_nil_iff]

@[simp] theorem wide_append (s t : String) : wide (s ++ t) = wide s ++ wide t := by
  simp [wide]

end Text

end ThreatModel
