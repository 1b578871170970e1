/-!
# Blank characters

The white space of this library, and what is cut at it: `isBlank` is the class, `dropBlanks` and `trimRight` take
blanks off the ends of a text, `words` are the runs of other characters.

* `trimRight_append_blanks`: what `trimRight` takes off is a run of blanks.
* `words_eq_nil_iff`: there are no words in blanks only.
-/

namespace ThreatModel.Text

/-- Tabs, line ends and the four separators U+001C–001F, the space, U+0085, and the spaces of every width. -/
def isBlank (c : Char) : Bool :=
  let n := c.toNat
  (9 ≤ n && n ≤ 13) || (28 ≤ n && n ≤ 32) || n == 0x85 || n == 0xA0 || n == 0x1680 ||
    (0x2000 ≤ n && n ≤ 0x200A) || n == 0x2028 || n == 0x2029 || n == 0x202F || n == 0x205F || n == 0x3000

/-- The text after its leading blanks. -/
def dropBlanks (s : List Char) : List Char := s.dropWhile isBlank

/-- The text without the blanks at its end. -/
def trimRight : List Char → List Char
  | []     => []
  | c :: s =>
    match trimRight s with
    | []     => if isBlank c then [] else [c]
    | d :: t => c :: d :: t

/-- The maximal runs of characters that are not blank, in order. -/
def words : List Char → List (List Char)
  | []     => []
  | c :: s =>
    if isBlank c then words s
    else if (s.head?.map isBlank).getD true then [c] :: words s
    else
      match words s with
      | []      => [[c]]
      | w :: ws => (c :: w) :: ws

/-- What `trimRight` takes off is a run of blanks. -/
theorem trimRight_append_blanks (s : List Char) :
    ∃ b : List Char, (∀ c ∈ b, isBlank c) ∧ trimRight s ++ b = s := by
  induction s with
  | nil => exact ⟨[], by simp, rfl⟩
  | cons c s ih =>
    obtain ⟨b, hb, hs⟩ := ih
    rw [trimRight]
    split
    · rename_i ht
      rw [ht] at hs
      by_cases hc : isBlank c
      · exact ⟨c :: b, by simpa [hc] using hb, by simpa [hc] using hs⟩
      · exact ⟨b, hb, by simpa [hc] using hs⟩
    · rename_i d t ht
      rw [ht] at hs
      exact ⟨b, hb, by simpa using hs⟩

/-- There are no words in blanks only. -/
theorem words_eq_nil_iff {s : List Char} : words s = [] ↔ ∀ c ∈ s, isBlank c = true := by
  induction s with
  | nil => simp [words]
  | cons c s ih =>
    rw [words]
    split
    · simp_all
    · split
      · simp_all
      · split <;> simp_all

end ThreatModel.Text
