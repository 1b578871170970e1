import ThreatModel.Proofs.Annotations.Filing
import ThreatModel.Proofs.Runs

/-!
# Edits — facts that are changed from outside

Facts that were read can be changed: a record is put under a key, a record is put under a second
key, or the record of a key gets a site.  An edit that names a key needs its entry, and fails for
no other reason (`exists_apply_iff`).

No edit loses a record.  Each is still found under some key or listed as a duplicate
(`Kept.apply`), and what was said of it, its site apart, is what was said before (`grows_apply`);
so it is after any number of edits of facts that were read (`kept_run`).  Two keys that share a
record show one site (`function?_bind`).
-/

namespace ThreatModel.Facts

/-- A change of facts from outside. -/
inductive Edit where
  | putNew (key : String) (r : FunctionRecord)
  | share (key source : String)
  | bind (key : String) (site : CodeSite)

/-- The facts after an edit. -/
def apply (f : Facts) : Edit → Except MissingKey Facts
  | .putNew key r     => .ok (f.putNew key r)
  | .share key source => f.share key source
  | .bind key site    => f.bind key site

/-- The key whose entry an edit needs. -/
def Edit.needs? : Edit → Option String
  | putNew _ _   => none
  | share _ source => some source
  | bind key _   => some key

/-- A record without its site. -/
def unsited (r : FunctionRecord) : FunctionRecord := { r with site := none }

variable {f g : Facts} {key source : String} {site : CodeSite} {edit : Edit}

theorem share_eq_ok_iff : f.share key source = .ok g ↔
    ∃ id, f.table.get? source = some id ∧ g = f.put key id := by
  rw [share]
  cases f.table.get? source with
  | none => exact ⟨nofun, fun ⟨_, h, _⟩ => nomatch h⟩
  | some id => simp [eq_comm]

theorem bind_eq_ok_iff : f.bind key site = .ok g ↔
    ∃ id, f.table.get? key = some id ∧ g = f.update id fun r => { r with site := some site } := by
  rw [bind]
  cases f.table.get? key with
  | none => exact ⟨nofun, fun ⟨_, h, _⟩ => nomatch h⟩
  | some id => simp [eq_comm]

/-- **An edit fails exactly if the key that it needs has no entry.** -/
theorem exists_apply_iff : (∃ g, f.apply edit = .ok g) ↔
    ∀ key ∈ edit.needs?, key ∈ f.table.keys := by
  constructor
  · rintro ⟨g, h⟩ k hk
    rw [Ledger.mem_keys_iff]
    cases edit with
    | putNew key r => cases hk
    | share key source =>
        cases hk
        obtain ⟨id, hid, -⟩ := share_eq_ok_iff.mp h
        exact ⟨id, hid⟩
    | bind key site =>
        cases hk
        obtain ⟨id, hid, -⟩ := bind_eq_ok_iff.mp h
        exact ⟨id, hid⟩
  · intro h
    cases edit with
    | putNew key r => exact ⟨_, rfl⟩
    | share key source =>
        obtain ⟨id, hid⟩ := Ledger.mem_keys_iff.mp (h source rfl)
        exact ⟨_, share_eq_ok_iff.mpr ⟨id, hid, rfl⟩⟩
    | bind key site =>
        obtain ⟨id, hid⟩ := Ledger.mem_keys_iff.mp (h key rfl)
        exact ⟨_, bind_eq_ok_iff.mpr ⟨id, hid, rfl⟩⟩

/-! ### No record is lost -/

/-- Every record is found under a key or listed as a duplicate. -/
structure Kept (f : Facts) : Prop where
  lt : ∀ {key id}, f.table.get? key = some id → id < f.records.length
  mem : ∀ id < f.records.length, (∃ key, f.table.get? key = some id) ∨ id ∈ f.duplicates

/-- Nothing is taken back from what was said: there may be more records, more duplicates, and
other sites. -/
structure GrowsTo (f g : Facts) : Prop where
  records : f.records.map unsited <+: g.records.map unsited
  duplicates : f.duplicates <+: g.duplicates
  packages : g.packages = f.packages
  found : g.found = f.found
  covered : g.covered = f.covered
  tested : g.tested = f.tested

theorem GrowsTo.refl (f : Facts) : f.GrowsTo f :=
  ⟨List.prefix_refl _, List.prefix_refl _, rfl, rfl, rfl, rfl⟩

theorem GrowsTo.trans {h : Facts} (hfg : f.GrowsTo g) (hgh : g.GrowsTo h) : f.GrowsTo h where
  records := hfg.records.trans hgh.records
  duplicates := hfg.duplicates.trans hgh.duplicates
  packages := hgh.packages.trans hfg.packages
  found := hgh.found.trans hfg.found
  covered := hgh.covered.trans hfg.covered
  tested := hgh.tested.trans hfg.tested

theorem Filed.kept (h : f.Filed) : f.Kept where
  lt {key id} hget := by
    refine h.mem_iff.mp (List.mem_append_left _ ?_)
    exact List.mem_map.mpr ⟨(key, id), Ledger.mem_toList_iff.mpr hget, rfl⟩
  mem id hid := by
    rcases List.mem_append.mp (h.mem_iff.mpr hid) with hmem | hmem
    · obtain ⟨⟨key, _⟩, hentry, rfl⟩ := List.mem_map.mp hmem
      exact .inl ⟨key, Ledger.mem_toList_iff.mp hentry⟩
    · exact .inr hmem

/-- Putting a record under a key keeps it and all others: the one that loses its entry is a
duplicate. -/
theorem kept_put {id : RecordId} (hid : id < f.records.length)
    (hlt : ∀ {key id'}, f.table.get? key = some id' → id' < f.records.length)
    (hmem : ∀ id' < f.records.length, id' ≠ id →
      (∃ key, f.table.get? key = some id') ∨ id' ∈ f.duplicates) :
    (f.put key id).Kept where
  lt {k} {id'} hget := by
    rw [put, Ledger.get?_insert] at hget
    split at hget
    · cases hget
      exact hid
    · exact hlt hget
  mem id' hid' := by
    have hget (k : String) : (f.put key id).table.get? k =
        if key = k then some id else f.table.get? k := Ledger.get?_insert ..
    by_cases hsame : id' = id
    · exact .inl ⟨key, by rw [hget, if_pos rfl, hsame]⟩
    · rw [duplicates_put, List.mem_append]
      rcases hmem id' hid' hsame with ⟨k, hk⟩ | hdup
      · by_cases hkey : key = k
        · subst hkey
          exact .inr (.inr (by simp [hk, Option.filter, hsame]))
        · exact .inl ⟨k, by rw [hget, if_neg hkey, hk]⟩
      · exact .inr (.inl hdup)

theorem Kept.putNew (h : f.Kept) (key : String) (r : FunctionRecord) : (f.putNew key r).Kept := by
  have hlength : (f.add r).1.records.length = f.records.length + 1 := List.length_append
  refine kept_put (f := (f.add r).1) ?_ ?_ ?_
  · rw [hlength]
    exact Nat.lt_succ_self _
  · intro key id hget
    rw [hlength]
    exact Nat.lt_succ_of_lt (h.lt hget)
  · intro id hid hne
    rw [hlength] at hid
    exact h.mem id (Nat.lt_of_le_of_ne (Nat.le_of_lt_succ hid) hne)

/-- **An edit keeps all records.** -/
theorem Kept.apply (h : f.Kept) (hedit : f.apply edit = .ok g) : g.Kept := by
  cases edit with
  | putNew key r =>
      cases hedit
      exact h.putNew key r
  | share key source =>
      obtain ⟨id, hid, rfl⟩ := share_eq_ok_iff.mp hedit
      exact kept_put (h.lt hid) h.lt fun id' hid' _ => h.mem id' hid'
  | bind key site =>
      obtain ⟨id, -, rfl⟩ := bind_eq_ok_iff.mp hedit
      have hlength : (f.update id fun r => { r with site := some site }).records.length =
          f.records.length := List.length_modify ..
      exact ⟨fun hget => hlength ▸ h.lt hget, fun id' hid' => h.mem id' (hlength ▸ hid')⟩

/-- What a change leaves as it is, it leaves in every element. -/
theorem map_modify_of_eq {α β : Type} {view : α → β} {change : α → α}
    (h : ∀ a, view (change a) = view a) (as : List α) (i : Nat) :
    (as.modify i change).map view = as.map view := by
  induction as generalizing i with
  | nil => cases i <;> rfl
  | cons a as ih =>
      cases i with
      | zero => rw [List.modify_zero_cons, List.map_cons, List.map_cons, h]
      | succ i => rw [List.modify_succ_cons, List.map_cons, List.map_cons, ih]

/-- **An edit takes nothing back.** -/
theorem grows_apply (hedit : f.apply edit = .ok g) : f.GrowsTo g := by
  have hput (f : Facts) (key : String) (id : RecordId) : f.GrowsTo (f.put key id) :=
    ⟨List.prefix_refl _, by rw [duplicates_put]; exact List.prefix_append .., rfl, rfl, rfl, rfl⟩
  cases edit with
  | putNew key r =>
      cases hedit
      refine GrowsTo.trans (g := (f.add r).1) ?_ (hput _ _ _)
      refine ⟨?_, List.prefix_refl _, rfl, rfl, rfl, rfl⟩
      rw [Facts.add, List.map_append]
      exact List.prefix_append ..
  | share key source =>
      obtain ⟨id, -, rfl⟩ := share_eq_ok_iff.mp hedit
      exact hput f key id
  | bind key site =>
      obtain ⟨id, -, rfl⟩ := bind_eq_ok_iff.mp hedit
      refine ⟨?_, List.prefix_refl _, rfl, rfl, rfl, rfl⟩
      have hsame : (f.records.modify id fun r => { r with site := some site }).map unsited =
          f.records.map unsited := by
        refine map_modify_of_eq ?_ f.records id
        exact fun _ => rfl
      exact hsame ▸ List.prefix_refl _

/-- **No number of edits loses a record** of facts that were read, or takes back what was said. -/
theorem kept_run (hf : f.Filed) {edits : List Edit} (hrun : edits.foldlM apply f = .ok g) :
    g.Kept ∧ f.GrowsTo g := by
  refine foldlM_ok (fun g => g.Kept ∧ f.GrowsTo g) ?_ hrun ⟨hf.kept, .refl f⟩
  rintro edit g g' hedit ⟨hkept, hgrows⟩
  exact ⟨hkept.apply hedit, hgrows.trans (grows_apply hedit)⟩

/-! ### Shared records -/

/-- **A shared record is found under both keys**; under other keys nothing changes. -/
theorem function?_share (h : f.share key source = .ok g) (k : String) :
    g.function? k = if key = k then f.function? source else f.function? k := by
  obtain ⟨id, hid, rfl⟩ := share_eq_ok_iff.mp h
  have hget : (f.put key id).table.get? k = if key = k then some id else f.table.get? k :=
    Ledger.get?_insert ..
  rw [function?, hget, function?, function?, hid]
  split <;> rfl

/-- **A site shows under every key of the record.** -/
theorem function?_bind (hf : f.Kept) (h : f.bind key site = .ok g) (k : String) :
    g.function? k =
      if f.table.get? k = f.table.get? key then
        (f.function? k).map fun r => { r with site := some site }
      else f.function? k := by
  obtain ⟨id, hid, rfl⟩ := bind_eq_ok_iff.mp h
  rw [function?, function?, hid]
  show Option.map (Facts.record _) (f.table.get? k) = _
  cases hk : f.table.get? k with
  | none => simp
  | some id' =>
      have hr := List.getElem?_eq_getElem (hf.lt hk)
      by_cases hsame : id' = id
      · subst hsame
        simp [record, update, hr]
      · simp [record, update, hr, hsame, Ne.symm hsame]

end ThreatModel.Facts
