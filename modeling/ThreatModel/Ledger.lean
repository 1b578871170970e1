/-!
# Ledger — a table that remembers the order of its first entries

A ledger maps keys to values and lists them in the order in which the keys came.  A key that comes again keeps its place.
A `Tally` is a ledger of counts.

* `keys_alter`: `alter` keeps the keys there are, in their order, and puts a new one at the end.
* `get?_alter`: it changes the value at its key only.
* `mem_toList_iff`: what is listed is what `get?` finds.
-/

namespace ThreatModel

/-- Entries in order of arrival, each key once. -/
structure Ledger (κ ν : Type) where
  /-- The entries in order. -/
  toList : List (κ × ν)
  nodup_keys : (toList.map Prod.fst).Nodup

namespace Ledger

variable {κ ν μ : Type}

/-- No entries. -/
def empty : Ledger κ ν := ⟨[], List.nodup_nil⟩

instance : Inhabited (Ledger κ ν) := ⟨empty⟩

/-- The keys in order of arrival. -/
def keys (l : Ledger κ ν) : List κ := l.toList.map Prod.fst

/-- The values in order of their keys. -/
def values (l : Ledger κ ν) : List ν := l.toList.map Prod.snd

/-- The number of keys. -/
def size (l : Ledger κ ν) : Nat := l.toList.length

variable [DecidableEq κ]

/-- The value in the first entry of a key. -/
def lookup (k : κ) : List (κ × ν) → Option ν
  | []          => none
  | (k', v) :: r => if k' = k then some v else lookup k r

/-- The entries with the value at `k` made by `f` from the value there, in its place, or else at the end. -/
def alterEntries (k : κ) (f : Option ν → ν) : List (κ × ν) → List (κ × ν)
  | []          => [(k, f none)]
  | (k', v) :: r => if k' = k then (k', f (some v)) :: r else (k', v) :: alterEntries k f r

theorem map_fst_alterEntries (k : κ) (f : Option ν → ν) (l : List (κ × ν)) :
    (alterEntries k f l).map Prod.fst =
      if k ∈ l.map Prod.fst then l.map Prod.fst else l.map Prod.fst ++ [k] := by
  induction l with
  | nil => simp [alterEntries]
  | cons x r ih =>
    by_cases h : x.1 = k
    · simp [alterEntries, h]
    · have h' : ¬ k = x.1 := fun e => h e.symm
      simp only [alterEntries, h, if_false, List.map_cons, ih, List.mem_cons, h', false_or]
      split <;> simp

theorem lookup_alterEntries (k k' : κ) (f : Option ν → ν) (l : List (κ × ν)) :
    lookup k' (alterEntries k f l) = if k = k' then some (f (lookup k l)) else lookup k' l := by
  induction l with
  | nil => by_cases h : k = k' <;> simp [alterEntries, lookup, h]
  | cons x r ih =>
    by_cases hx : x.1 = k
    · subst hx
      by_cases h : x.1 = k' <;> simp [alterEntries, lookup, h]
    · by_cases h : x.1 = k'
      · subst h
        have hx' : ¬ k = x.1 := fun e => hx e.symm
        simp [alterEntries, lookup, hx, hx']
      · simp [alterEntries, lookup, hx, h, ih]

/-- The value at a key. -/
def get? (l : Ledger κ ν) (k : κ) : Option ν := lookup k l.toList

/-- The key has a value. -/
def contains (l : Ledger κ ν) (k : κ) : Bool := (l.get? k).isSome

/-- Makes the value at `k` from the value there, if there is one.  A new key goes to the end. -/
def alter (l : Ledger κ ν) (k : κ) (f : Option ν → ν) : Ledger κ ν where
  toList := alterEntries k f l.toList
  nodup_keys := by
    rw [map_fst_alterEntries]
    split
    · exact l.nodup_keys
    · rename_i h
      exact List.nodup_append.2 ⟨l.nodup_keys, by simp, fun a ha b hb => by
        rw [List.mem_singleton] at hb
        exact fun e => h (hb ▸ e ▸ ha)⟩

/-- Sets the value at a key. -/
def insert (l : Ledger κ ν) (k : κ) (v : ν) : Ledger κ ν := l.alter k fun _ => v

/-- Removes the entry of a key. -/
def erase (l : Ledger κ ν) (k : κ) : Ledger κ ν where
  toList := l.toList.filter fun e => e.1 ≠ k
  nodup_keys := l.nodup_keys.sublist (List.filter_sublist.map _)

/-- The ledger of a list of entries; of two entries of one key the later value stands, in the place of the earlier. -/
def ofList (xs : List (κ × ν)) : Ledger κ ν := xs.foldl (fun l (k, v) => l.insert k v) empty

omit [DecidableEq κ] in
@[simp] theorem toList_empty : (empty : Ledger κ ν).toList = [] := rfl

@[simp] theorem get?_empty (k : κ) : (empty : Ledger κ ν).get? k = none := rfl

/-- **`alter` keeps the keys there are, in order, and puts a new one at the end.** -/
theorem keys_alter (l : Ledger κ ν) (k : κ) (f : Option ν → ν) :
    (l.alter k f).keys = if k ∈ l.keys then l.keys else l.keys ++ [k] :=
  map_fst_alterEntries k f l.toList

/-- **`alter` changes the value at its key only.** -/
theorem get?_alter (l : Ledger κ ν) (k k' : κ) (f : Option ν → ν) :
    (l.alter k f).get? k' = if k = k' then some (f (l.get? k)) else l.get? k' :=
  lookup_alterEntries k k' f l.toList

theorem get?_insert (l : Ledger κ ν) (k k' : κ) (v : ν) :
    (l.insert k v).get? k' = if k = k' then some v else l.get? k' :=
  get?_alter l k k' _

theorem keys_insert (l : Ledger κ ν) (k : κ) (v : ν) :
    (l.insert k v).keys = if k ∈ l.keys then l.keys else l.keys ++ [k] :=
  keys_alter l k _

theorem lookup_eq_some_iff {l : List (κ × ν)} (h : (l.map Prod.fst).Nodup) {k : κ} {v : ν} :
    lookup k l = some v ↔ (k, v) ∈ l := by
  induction l with
  | nil => simp [lookup]
  | cons x r ih =>
    obtain ⟨k', v'⟩ := x
    rw [List.map_cons, List.nodup_cons] at h
    by_cases hk : k' = k
    · subst hk
      have hr : (k', v) ∉ r := fun hm => h.1 (List.mem_map.2 ⟨_, hm, rfl⟩)
      simp [lookup, hr, eq_comm]
    · have hk' : ¬ k = k' := fun e => hk e.symm
      simp [lookup, hk, hk', ih h.2]

/-- **What is listed is what `get?` finds.** -/
theorem mem_toList_iff {l : Ledger κ ν} {k : κ} {v : ν} : (k, v) ∈ l.toList ↔ l.get? k = some v :=
  (lookup_eq_some_iff l.nodup_keys).symm

end Ledger

/-- Counts in order of first counting. -/
abbrev Tally (κ : Type) : Type := Ledger κ Nat

namespace Tally

variable {κ : Type} [DecidableEq κ]

/-- Counts `k` once more. -/
def bump (t : Tally κ) (k : κ) : Tally κ := t.alter k fun n => n.getD 0 + 1

/-- How often `k` was counted. -/
def count (t : Tally κ) (k : κ) : Nat := (t.get? k).getD 0

@[simp] theorem count_empty (k : κ) : count (Ledger.empty : Tally κ) k = 0 := rfl

theorem count_bump (t : Tally κ) (k k' : κ) :
    count (bump t k) k' = count t k' + if k = k' then 1 else 0 := by
  rw [count, bump, Ledger.get?_alter]
  by_cases h : k = k'
  · subst h; simp [count]
  · simp [h, count]

end Tally

end ThreatModel
