import Mathlib.Data.List.Basic
import Mathlib.Data.List.Induction
import ThreatModel.Ledger
import ThreatModel.Proofs.Distinct
import ThreatModel.Proofs.Runs

/-!
# Ledgers — what goes in and what comes out

* `insert_of_get?`: inserting what is there already does nothing.
* `values_insert`: an insertion takes in the new value and gives out the one it takes the place of.
* `eq_of_get?`: a ledger is its keys in order and what `get?` finds.
* `get?_erase`, `keys_erase`: an entry that is removed, and no other, is gone.
* `mem_keys_foldl`: the keys of a ledger filled step by step.
* `keys_gather`, `get?_gather`: a list gathered by key has each key where it first comes, and under
  it what is listed of the key, in order.
* `sum_values_alter`, `sum_values_gather`: what the values of a ledger measure together.
* `get?_group`: values grouped by two keys.
* `get?_eq_entry`: a tally that lists no count of 0 is settled by its counts.
* `get?_ofList`, `keys_ofList`: the tally of a list.
-/

namespace ThreatModel

namespace Ledger

variable {κ ν : Type} [DecidableEq κ] {l : Ledger κ ν} {k : κ} {v : ν}

theorem alterEntries_of_lookup {f : Option ν → ν} {entries : List (κ × ν)}
    (h : lookup k entries = some v) (hf : f (some v) = v) : alterEntries k f entries = entries := by
  induction entries with
  | nil => cases h
  | cons entry entries ih =>
      obtain ⟨k', v'⟩ := entry
      by_cases hk : k' = k
      · obtain rfl : v' = v := by simpa [lookup, hk] using h
        simp [alterEntries, hk, hf]
      · have hrest : lookup k entries = some v := by simpa [lookup, hk] using h
        simp [alterEntries, hk, ih hrest]

/-- Inserting what is there already does nothing. -/
theorem insert_of_get? (h : l.get? k = some v) : l.insert k v = l := by
  have hentries := alterEntries_of_lookup (f := fun _ => v) h rfl
  cases l
  simpa [insert, alter] using hentries

theorem map_snd_alterEntries (k : κ) (f : Option ν → ν) (entries : List (κ × ν)) :
    ((alterEntries k f entries).map Prod.snd ++ (lookup k entries).toList).Perm
      (entries.map Prod.snd ++ [f (lookup k entries)]) := by
  induction entries with
  | nil => exact .refl _
  | cons entry entries ih =>
      obtain ⟨k', v⟩ := entry
      by_cases hk : k' = k
      · simp only [alterEntries, lookup, hk, if_true, List.map_cons, Option.toList_some,
          List.cons_append]
        have hv := List.perm_append_singleton v (entries.map Prod.snd)
        have hf := List.perm_append_singleton (f (some v)) (entries.map Prod.snd)
        exact ((hv.cons _).trans (.swap ..)).trans (hf.symm.cons v)
      · simpa [alterEntries, lookup, hk] using ih

/-- An insertion takes in the new value and gives out the one it takes the place of. -/
theorem values_insert (l : Ledger κ ν) (k : κ) (v : ν) :
    ((l.insert k v).values ++ (l.get? k).toList).Perm (l.values ++ [v]) :=
  map_snd_alterEntries k _ l.toList

/-! ### Keys -/

theorem mem_keys_iff : k ∈ l.keys ↔ ∃ v, l.get? k = some v := by
  simp only [keys, List.mem_map, Prod.exists, exists_and_right, exists_eq_right, mem_toList_iff]

theorem get?_eq_none_iff : l.get? k = none ↔ k ∉ l.keys := by
  rw [mem_keys_iff]
  cases l.get? k <;> simp

theorem mem_keys_alter {k' : κ} {f : Option ν → ν} :
    k ∈ (l.alter k' f).keys ↔ k ∈ l.keys ∨ k = k' := by
  rw [keys_alter]
  split
  · rename_i hk'
    exact ⟨.inl, fun h => h.elim id fun hk => hk ▸ hk'⟩
  · rw [List.mem_append, List.mem_singleton]

/-- The entries are the keys with their values. -/
theorem toList_eq (l : Ledger κ ν) :
    l.toList = l.keys.filterMap fun k => (l.get? k).map (k, ·) := by
  have hget : ∀ e ∈ l.toList, (l.get? e.1).map (e.1, ·) = some e := fun e he => by
    rw [mem_toList_iff.mp he, Option.map_some]
  rw [keys, List.filterMap_map]
  exact ((List.filterMap_congr hget).trans List.filterMap_some).symm

/-- A ledger is its keys in order and what `get?` finds. -/
theorem eq_of_get? {l' : Ledger κ ν} (hkeys : l.keys = l'.keys)
    (hget : ∀ k, l.get? k = l'.get? k) : l = l' := by
  have hentries : l.toList = l'.toList := by
    rw [toList_eq, toList_eq, hkeys]
    exact List.filterMap_congr fun k _ => by rw [hget]
  cases l
  cases l'
  cases hentries
  rfl

theorem lookup_filter_ne (k k' : κ) (entries : List (κ × ν)) :
    lookup k' (entries.filter fun e => e.1 ≠ k) =
      if k = k' then none else lookup k' entries := by
  induction entries with
  | nil => exact (ite_self none).symm
  | cons e entries ih =>
      rw [List.filter_cons]
      by_cases he : e.1 = k
      · rw [if_neg (by simpa using he), ih, lookup, he]
        split <;> rfl
      · rw [if_pos (by simpa using he), lookup, ih, lookup]
        by_cases hk : k = k'
        · simp [hk, hk ▸ he]
        · simp [hk]

/-- An entry that is removed is gone, and no other is. -/
theorem get?_erase (l : Ledger κ ν) (k k' : κ) :
    (l.erase k).get? k' = if k = k' then none else l.get? k' :=
  lookup_filter_ne k k' l.toList

theorem keys_erase (l : Ledger κ ν) (k : κ) : (l.erase k).keys = l.keys.filter (· ≠ k) := by
  rw [keys, erase, keys, List.filter_map]
  rfl

omit [DecidableEq κ] in
/-- If each step adds keys to a ledger, the whole run adds the keys of its steps. -/
theorem mem_keys_foldl {α : Type} {step : Ledger κ ν → α → Ledger κ ν} (added : α → κ → Prop)
    (hstep : ∀ l a, k ∈ (step l a).keys ↔ k ∈ l.keys ∨ added a k) (as : List α) :
    k ∈ (as.foldl step l).keys ↔ k ∈ l.keys ∨ ∃ a ∈ as, added a k := by
  induction as generalizing l with
  | nil => simp
  | cons a as ih =>
      rw [List.foldl_cons, ih, hstep, or_assoc]
      simp only [List.mem_cons, exists_eq_or_imp]

/-! ### Gathering by key -/

section
variable {α : Type} (key : α → κ) (new : α → ν) (add : ν → α → ν)

/-- The elements of a list gathered by key: the first one of a key opens the key's value, and each
one of the key is added to it in turn. -/
def gather (as : List α) : Ledger κ ν :=
  as.foldl (fun l a => l.alter (key a) fun v => add (v.getD (new a)) a) empty

/-- Each key stands where it first comes. -/
theorem keys_gather (as : List α) : (gather key new add as).keys = distinct (as.map key) := by
  induction as using List.reverseRecOn with
  | nil => rfl
  | append_singleton as a ih =>
      rw [List.map_append, List.map_singleton, distinct_concat, gather, List.foldl_append,
        List.foldl_cons, List.foldl_nil, keys_alter, ← gather, ih]
      simp only [mem_distinct_iff]

/-- **A key has what is listed of it, in order**; nothing listed, no value. -/
theorem get?_gather (as : List α) (k : κ) :
    (gather key new add as).get? k =
      (as.filter (key · = k)).head?.map fun a => (as.filter (key · = k)).foldl add (new a) := by
  induction as using List.reverseRecOn with
  | nil => rfl
  | append_singleton as a ih =>
      rw [gather, List.foldl_append, List.foldl_cons, List.foldl_nil, get?_alter, ← gather,
        List.filter_append]
      by_cases hk : key a = k
      · subst hk
        rw [if_pos rfl, ih]
        -- the last element opens its value if no earlier one did
        cases hfirst : as.filter (key · = key a) <;> simp
      · simp [hk, ih]

end

/-! ### Sums over the values -/

/-- A changed value adds to the sum of all what it measures more than before. -/
theorem sum_values_alter (l : Ledger κ ν) (k : κ) {f : Option ν → ν} {measure : ν → Nat} {n : Nat}
    (h : measure (f (l.get? k)) = ((l.get? k).map measure).getD 0 + n) :
    ((l.alter k f).values.map measure).sum = (l.values.map measure).sum + n := by
  obtain ⟨entries, nodup⟩ := l
  simp only [values, alter, get?] at h ⊢
  clear nodup
  induction entries with
  | nil => simpa [alterEntries, lookup] using h
  | cons entry entries ih =>
      obtain ⟨k', v⟩ := entry
      by_cases hk : k' = k
      · simp only [lookup, hk, if_true, Option.map_some, Option.getD_some] at h
        simp only [alterEntries, hk, if_true, List.map_cons, List.sum_cons, h]
        omega
      · simp only [lookup, hk, if_false] at h
        simp only [alterEntries, hk, if_false, List.map_cons, List.sum_cons, ih h]
        omega

/-- If a new value measures nothing, gathered values measure what their elements add. -/
theorem sum_values_gather {α : Type} {key : α → κ} {new : α → ν} {add : ν → α → ν}
    (measure : ν → Nat) {added : α → Nat} (hnew : ∀ a, measure (new a) = 0)
    (hadd : ∀ v a, measure (add v a) = measure v + added a) (as : List α) :
    ((gather key new add as).values.map measure).sum = (as.map added).sum := by
  have hstep : ∀ (l : Ledger κ ν) a,
      ((l.alter (key a) fun v => add (v.getD (new a)) a).values.map measure).sum =
        (l.values.map measure).sum + added a := by
    intro l a
    refine sum_values_alter l (key a) ?_
    rw [hadd]
    cases l.get? (key a) with
    | none => simp [hnew]
    | some v => rfl
  calc ((gather key new add as).values.map measure).sum
      = ((empty : Ledger κ ν).values.map measure).sum + (as.map added).sum :=
        measure_foldl (fun l : Ledger κ ν => (l.values.map measure).sum) hstep as empty
    _ = (as.map added).sum := Nat.zero_add _

/-! ### Grouping by two keys -/

section
variable {α κ' : Type} [DecidableEq κ'] (outer : α → κ) (inner : α → κ') (value : α → ν)

/-- Puts a value at the end of its group. -/
def addTo (row : Ledger κ' (List ν)) (a : α) : Ledger κ' (List ν) :=
  row.alter (inner a) fun vs => vs.getD [] ++ [value a]

/-- The values of a list, grouped by two keys. -/
def group (as : List α) : Ledger κ (Ledger κ' (List ν)) :=
  gather outer (fun _ => empty) (addTo inner value) as

/-- A row is there for an element, and it has the inner keys of all elements of the row. -/
theorem of_get?_group {as : List α} {k : κ} {row : Ledger κ' (List ν)}
    (h : (group outer inner value as).get? k = some row) :
    (∃ a ∈ as, outer a = k) ∧ row.keys = distinct ((as.filter (outer · = k)).map inner) := by
  rw [group, get?_gather, Option.map_eq_some_iff] at h
  obtain ⟨a, ha, rfl⟩ := h
  obtain ⟨hmem, hk⟩ := List.mem_filter.mp (List.mem_of_mem_head? ha)
  exact ⟨⟨a, hmem, of_decide_eq_true hk⟩, keys_gather inner (fun _ => []) (· ++ [value ·]) _⟩

theorem get?_foldl_addTo (as : List α) (k' : κ') :
    (as.foldl (addTo inner value) empty).get? k' =
      if as.filter (inner · = k') = [] then none
      else some ((as.filter (inner · = k')).map value) := by
  have happend : ∀ (as : List α) (vs : List ν),
      as.foldl (fun vs a => vs ++ [value a]) vs = vs ++ as.map value := by
    intro as
    induction as with
    | nil => simp
    | cons a as ih => simp [ih]
  refine (get?_gather inner (fun _ => []) (· ++ [value ·]) as k').trans ?_
  cases as.filter (inner · = k') with
  | nil => rfl
  | cons a as => simp [happend]

/-- **A group has the values of its two keys, in order**; no value, no group. -/
theorem get?_group (as : List α) (k : κ) (k' : κ') :
    ((group outer inner value as).get? k).bind (·.get? k') =
      if as.filter (fun a => outer a = k ∧ inner a = k') = [] then none
      else some ((as.filter fun a => outer a = k ∧ inner a = k').map value) := by
  have hfilter : as.filter (fun a => outer a = k ∧ inner a = k') =
      (as.filter (outer · = k)).filter (inner · = k') := by
    rw [List.filter_filter]
    simp only [Bool.decide_and, Bool.and_comm]
  rw [hfilter, ← get?_foldl_addTo, group, get?_gather]
  cases as.filter (outer · = k) <;> rfl

/-- No value is lost. -/
theorem sum_values_group (as : List α) :
    ((group outer inner value as).values.map fun row => (row.values.map List.length).sum).sum =
      as.length := by
  have hadd : ∀ (row : Ledger κ' (List ν)) a,
      ((addTo inner value row a).values.map List.length).sum =
        (row.values.map List.length).sum + 1 := by
    refine fun row a => sum_values_alter row (inner a) ?_
    cases row.get? (inner a) <;> simp
  calc ((group outer inner value as).values.map fun row => (row.values.map List.length).sum).sum
      = (as.map fun _ => 1).sum :=
        sum_values_gather (fun row : Ledger κ' (List ν) => (row.values.map List.length).sum)
          (fun _ => by rfl) hadd as
    _ = as.length := by rw [List.map_const', List.sum_replicate_nat, Nat.mul_one]

end

end Ledger

namespace Tally

theorem count_of_get? {κ : Type} [DecidableEq κ] {t : Tally κ} {k : κ} {n : Nat}
    (h : t.get? k = some n) : count t k = n := by
  rw [count, h, Option.getD_some]

/-- The entry of a count in a tally; what was not counted has none. -/
def entry (n : Nat) : Option Nat := if n = 0 then none else some n

/-- A tally without counts of 0 has an entry for what was counted only. -/
theorem get?_eq_entry {κ : Type} [DecidableEq κ] {t : Tally κ} {k : κ}
    (h : ∀ n, t.get? k = some n → 0 < n) : t.get? k = entry (count t k) := by
  cases hget : t.get? k with
  | none => rw [count, hget, Option.getD_none, entry, if_pos rfl]
  | some n => rw [count_of_get? hget, entry, if_neg (Nat.ne_of_gt (h n hget))]

/-- Counting the elements of a list by key. -/
theorem count_foldl_bump {κ α : Type} [DecidableEq κ] (key : α → κ) (as : List α) (t : Tally κ)
    (k : κ) : count (as.foldl (fun t a => bump t (key a)) t) k =
      count t k + as.countP (key · = k) := by
  induction as generalizing t with
  | nil => rfl
  | cons a as ih =>
      rw [List.foldl_cons, ih, count_bump, List.countP_cons]
      simp only [decide_eq_true_eq]
      omega

section
variable {κ : Type} [DecidableEq κ]

/-- The tally of a list. -/
def ofList (ks : List κ) : Tally κ := ks.foldl bump .empty

theorem ofList_concat (ks : List κ) (k : κ) : ofList (ks ++ [k]) = bump (ofList ks) k :=
  List.foldl_append

theorem keys_ofList (ks : List κ) : (ofList ks).keys = distinct ks :=
  (Ledger.keys_gather id (fun _ => 0) (fun n _ => n + 1) ks).trans
    (congrArg distinct (List.map_id ks))

/-- What is not in the list has no count. -/
theorem get?_ofList (ks : List κ) (k : κ) :
    (ofList ks).get? k = if ks.count k = 0 then none else some (ks.count k) := by
  induction ks using List.reverseRecOn with
  | nil => rfl
  | append_singleton ks a ih =>
      rw [ofList_concat, bump, Ledger.get?_alter, List.count_append, List.count_singleton]
      by_cases ha : a = k
      · subst ha
        have hcount : ((ofList ks).get? a).getD 0 = ks.count a := by
          rw [ih]
          split
          · rename_i h
            exact h.symm
          · rfl
        simp [hcount]
      · simp [ha, ih]

/-- The counts of a list do not depend on its order. -/
theorem get?_ofList_perm {ks ks' : List κ} (h : ks.Perm ks') (k : κ) :
    (ofList ks).get? k = (ofList ks').get? k := by
  rw [get?_ofList, get?_ofList, h.count_eq]

theorem size_ofList (ks : List κ) : (ofList ks).size = (distinct ks).length := by
  rw [← keys_ofList, Ledger.keys, List.length_map, Ledger.size]

theorem size_ofList_perm {ks ks' : List κ} (h : ks.Perm ks') :
    (ofList ks).size = (ofList ks').size := by
  rw [size_ofList, size_ofList]
  exact (distinct_perm h).length_eq

end

end Tally

end ThreatModel
