import Mathlib.Data.List.Basic

/-!
# Codes — texts that are read from the left

* `append_cons_inj`: what stands in front of the first of a character can be told apart.
* `flatMap_inj_of_apart`: a text in a code can be read back if no word begins with another.
-/

namespace ThreatModel

/-- Both texts in front of the first of a character are the same. -/
theorem append_cons_inj {c : Char} {u v s t : List Char} (hu : c ∉ u) (hv : c ∉ v)
    (h : u ++ c :: s = v ++ c :: t) : u = v ∧ s = t := by
  rcases List.append_eq_append_iff.mp h with ⟨w, rfl, hw⟩ | ⟨w, rfl, hw⟩
  all_goals
    cases w with
    | nil => simpa [eq_comm] using hw
    | cons d w =>
        obtain rfl : c = d := (List.cons.inj hw).1
        simp at hu hv

/-- A code in which no word begins with another can be read from the left. -/
theorem flatMap_inj_of_apart {α β : Type} {f : α → List β} (hne : ∀ a, f a ≠ [])
    (hapart : ∀ a b, f a <+: f b → a = b) {s t : List α} (h : s.flatMap f = t.flatMap f) :
    s = t := by
  induction s generalizing t with
  | nil =>
      cases t with
      | nil => rfl
      | cons b t => exact absurd (List.append_eq_nil_iff.mp h.symm).1 (hne b)
  | cons a s ih =>
      cases t with
      | nil => exact absurd (List.append_eq_nil_iff.mp h).1 (hne a)
      | cons b t =>
          rw [List.flatMap_cons, List.flatMap_cons] at h
          have hab : a = b := by
            rcases List.prefix_or_prefix_of_prefix (List.prefix_append (f a) (s.flatMap f))
              (h ▸ List.prefix_append (f b) (t.flatMap f)) with hp | hp
            · exact hapart a b hp
            · exact (hapart b a hp).symm
          rw [hab, List.append_cancel_left_eq] at h
          rw [hab, ih h]

end ThreatModel
