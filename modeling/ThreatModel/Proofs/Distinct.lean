import Mathlib.Data.List.Basic
import Mathlib.Data.List.Induction
import ThreatModel.Severity

/-!
# Distinct — each element once, where it first comes

* `mem_distinct_iff`, `nodup_distinct`: the elements of a list, each once.
* `distinct_concat`, `distinct_prefix`: a new element goes to the end, one that came before changes
  nothing.
* `distinct_perm`: the same elements in another order.
* `filter_distinct`: the elements of some kind, each once.
* `distinct_append_of_subset`, `distinct_append_filter_ne`: what a list has already need not come
  behind it.
* `flatMap_distinct_perm`: a list is the groups of its elements by key.
-/

namespace ThreatModel

variable {α : Type} [DecidableEq α] {a b : α} {s : List α}

theorem mem_distinct_iff : a ∈ distinct s ↔ a ∈ s := by
  induction s with
  | nil => rfl
  | cons b s ih =>
      rw [distinct, List.mem_cons, List.mem_cons, List.mem_filter, ih]
      by_cases hab : a = b <;> simp [hab]

theorem nodup_distinct (s : List α) : (distinct s).Nodup := by
  induction s with
  | nil => exact List.nodup_nil
  | cons b s ih => exact List.nodup_cons.mpr ⟨by simp, ih.sublist List.filter_sublist⟩

/-- A new element goes to the end, one that came before changes nothing. -/
theorem distinct_concat (s : List α) (a : α) :
    distinct (s ++ [a]) = if a ∈ s then distinct s else distinct s ++ [a] := by
  induction s with
  | nil => rfl
  | cons b s ih =>
      rw [List.cons_append, distinct, ih, distinct]
      by_cases hs : a ∈ s
      · rw [if_pos hs, if_pos (List.mem_cons_of_mem _ hs)]
      · rw [if_neg hs, List.filter_append, ← List.cons_append]
        by_cases hab : a = b <;> simp [hab, hs]

/-- What comes behind a list goes to the end, if it is new. -/
theorem distinct_prefix (s t : List α) : distinct s <+: distinct (s ++ t) := by
  induction t using List.reverseRecOn with
  | nil => simp
  | append_singleton t b ih =>
      rw [← List.append_assoc, distinct_concat]
      split
      · exact ih
      · exact ih.trans (List.prefix_append _ _)

theorem distinct_perm {s t : List α} (h : s.Perm t) : (distinct s).Perm (distinct t) :=
  (List.perm_ext_iff_of_nodup (nodup_distinct s) (nodup_distinct t)).mpr fun a => by
    rw [mem_distinct_iff, mem_distinct_iff, h.mem_iff]

/-- Elements of one kind are picked out before or after. -/
theorem filter_distinct (p : α → Bool) (s : List α) :
    (distinct s).filter p = distinct (s.filter p) := by
  induction s with
  | nil => rfl
  | cons b s ih =>
      rw [distinct, List.filter_cons, List.filter_cons, List.filter_filter]
      cases hb : p b with
      | true =>
          simp only [if_true, distinct, ← ih, List.filter_filter, Bool.and_comm]
      | false =>
          -- what is picked out is not `b`, so it need not be taken away
          rw [if_neg Bool.false_ne_true, if_neg Bool.false_ne_true, ← ih]
          refine List.filter_congr fun a _ => ?_
          by_cases ha : a = b
          · rw [ha, hb, Bool.false_and]
          · simp [ha]

/-- What a list has already adds nothing behind it. -/
theorem distinct_append_of_subset {t : List α} (h : ∀ a ∈ t, a ∈ s) :
    distinct (s ++ t) = distinct s := by
  induction t using List.reverseRecOn with
  | nil => rw [List.append_nil]
  | append_singleton t b ih =>
      have hb : b ∈ s ++ t := List.mem_append_left _ (h b List.mem_concat_self)
      rw [← List.append_assoc, distinct_concat, if_pos hb,
        ih fun a ha => h a (List.mem_append_left _ ha)]

/-- What a list has already need not come behind it. -/
theorem distinct_append_filter_ne (ha : a ∈ s) (t : List α) :
    distinct (s ++ t.filter (· ≠ a)) = distinct (s ++ t) := by
  induction t using List.reverseRecOn with
  | nil => rfl
  | append_singleton t b ih =>
      rw [List.filter_append, ← List.append_assoc s t, distinct_concat, ← ih]
      by_cases hb : b = a
      · have hnone : [b].filter (· ≠ a) = [] := by simp [hb]
        rw [hnone, List.append_nil, if_pos (List.mem_append_left _ (hb ▸ ha))]
      · have hone : [b].filter (· ≠ a) = [b] := by simp [hb]
        have hmem : b ∈ s ++ t.filter (· ≠ a) ↔ b ∈ s ++ t := by simp [hb]
        rw [hone, ← List.append_assoc, distinct_concat]
        simp only [hmem]

section
variable {β : Type} (key : β → α)

theorem flatMap_filter_perm {keys : List α} (hkeys : keys.Nodup) {bs : List β}
    (h : ∀ b ∈ bs, key b ∈ keys) :
    (keys.flatMap fun k => bs.filter (key · = k)).Perm bs := by
  induction keys generalizing bs with
  | nil =>
      obtain rfl := List.eq_nil_iff_forall_not_mem.mpr fun b hb => List.not_mem_nil (h b hb)
      exact .refl _
  | cons k keys ih =>
      obtain ⟨hk, hkeys⟩ := List.nodup_cons.mp hkeys
      -- the groups of the other keys are those of the elements with other keys
      have hothers : ∀ k' ∈ keys,
          bs.filter (key · = k') = (bs.filter fun b => !decide (key b = k)).filter (key · = k') := by
        intro k' hk'
        rw [List.filter_filter]
        refine List.filter_congr fun b _ => ?_
        by_cases hb : key b = k'
        · have hne : key b ≠ k := fun e => hk (e ▸ hb ▸ hk')
          simp [hb, hb ▸ hne]
        · simp [hb]
      have hcovered : ∀ b ∈ bs.filter fun b => !decide (key b = k), key b ∈ keys := by
        intro b hb
        obtain ⟨hb, hne⟩ := List.mem_filter.mp hb
        exact (List.mem_cons.mp (h b hb)).resolve_left (by simpa using hne)
      rw [List.flatMap_cons, List.flatMap_congr hothers]
      exact ((ih hkeys hcovered).append_left _).trans (List.filter_append_perm _ bs)

/-- **A list is the groups of its elements by key**, but for the order. -/
theorem flatMap_distinct_perm (bs : List β) :
    ((distinct (bs.map key)).flatMap fun k => bs.filter (key · = k)).Perm bs :=
  flatMap_filter_perm key (nodup_distinct _) fun _ hb =>
    mem_distinct_iff.mpr (List.mem_map_of_mem hb)

end

end ThreatModel
