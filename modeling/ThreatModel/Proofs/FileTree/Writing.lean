import Mathlib.Data.List.Basic
import ThreatModel.FileTree.Basic

/-!
# Writing — what a tree holds after a task

A task makes directories where nothing was, and writes files where no directory is.  So a place that
a path leads to stays the place it leads to (`Grows.locate`), a directory that is made hides no file
(`makeDirectories_adds`), and a file that is written is read back, with no other file changed
(`read_write`).  A task that fails has changed no file (`write_of_error`).
-/

namespace ThreatModel.FileTree

variable {t t' u : FileTree} {place place' names : List String} {path : String}
  {bytes : List UInt8} {e : FileError}

/-- What stood in the first tree stands in the second one. -/
structure Adds (t t' : FileTree) : Prop where
  here : t'.here = t.here
  node : ∀ {place : List String} {n : FileNode}, t.node? place = some n → t'.node? place = some n

/-- Directories and files of the first tree are there in the second one; a file may have other
bytes. -/
structure Grows (t t' : FileTree) : Prop where
  here : t'.here = t.here
  directory : ∀ {place : List String},
    t.node? place = some .directory → t'.node? place = some .directory
  file : ∀ {place : List String} {bytes : List UInt8},
    t.node? place = some (.file bytes) → ∃ bytes', t'.node? place = some (.file bytes')

theorem Adds.refl (t : FileTree) : t.Adds t := ⟨rfl, id⟩

theorem Adds.trans (h : t.Adds u) (h' : u.Adds t') : t.Adds t' :=
  ⟨h'.here.trans h.here, fun hn => h'.node (h.node hn)⟩

theorem Adds.grows (h : t.Adds t') : t.Grows t' := ⟨h.here, h.node, fun hn => ⟨_, h.node hn⟩⟩

/-- The top is a directory, so where none stands is not the top. -/
theorem ne_nil_of_node? (h : t.node? place ≠ some .directory) : place ≠ [] := by
  rintro rfl
  exact h rfl

theorem adds_put_directory (h : t.node? place = none) : t.Adds (t.put place .directory) := by
  have hplace : place ≠ [] := ne_nil_of_node? (by rw [h]; exact nofun)
  refine ⟨rfl, fun {place'} {n} hn => ?_⟩
  have hne : place ≠ place' := by
    rintro rfl
    rw [h] at hn
    cases hn
  rw [node?_put t hplace, if_neg hne, hn]

theorem grows_put_file (h : t.node? place ≠ some .directory) (bytes : List UInt8) :
    t.Grows (t.put place (.file bytes)) := by
  have hplace := ne_nil_of_node? h
  refine ⟨rfl, fun {place'} hn => ?_, fun {place'} {bytes'} hn => ?_⟩
  · have hne : place ≠ place' := by
      rintro rfl
      exact h hn
    rw [node?_put t hplace, if_neg hne, hn]
  · rw [node?_put t hplace]
    split
    · exact ⟨bytes, rfl⟩
    · exact ⟨bytes', hn⟩

/-- **A place that is reached is reached in a tree with more in it.** -/
theorem Grows.follow (h : t.Grows t') (hfollow : t.follow place names = .ok place') :
    t'.follow place names = .ok place' := by
  fun_induction FileTree.follow t place names with
  | case1 place => exact hfollow
  | case2 place names ih =>
      rw [FileTree.follow, if_pos rfl]
      exact ih hfollow
  | case3 place names hdot ih =>
      rw [FileTree.follow, if_neg hdot, if_pos rfl]
      exact ih hfollow
  | case4 place n names hdot hdots hnode ih =>
      rw [FileTree.follow, if_neg hdot, if_neg hdots, h.directory hnode]
      exact ih hfollow
  | case5 place n hdot hdots bytes hnode =>
      obtain ⟨bytes', hnode'⟩ := h.file hnode
      rw [FileTree.follow, if_neg hdot, if_neg hdots, hnode']
      exact hfollow
  | case6 => cases hfollow
  | case7 place n hdot hdots hnode =>
      -- What is new at the last name may be a file or a directory.
      rw [FileTree.follow, if_neg hdot, if_neg hdots]
      cases t'.node? (place ++ [n]) with
      | none => exact hfollow
      | some n' => cases n' <;> exact hfollow
  | case8 => cases hfollow

theorem Grows.locate (h : t.Grows t') (hlocate : t.locate path = .ok place) :
    t'.locate path = .ok place := by
  rw [FileTree.locate] at hlocate ⊢
  split at hlocate
  · cases hlocate
  · rename_i hpath
    rw [if_neg hpath, startOf, h.here]
    exact h.follow hlocate

/-! ### Reading -/

theorem read_eq (t : FileTree) (path : String) : t.read path =
    match t.locate path with
    | .error e  => .error e
    | .ok place =>
      match t.node? place with
      | none            => .error .notFound
      | some .directory => .error .isDirectory
      | some (.file b)  => if Path.endsInSlash path then .error .notDirectory else .ok b := by
  rw [read, lookup]
  cases t.locate path with
  | error e => rfl
  | ok place =>
      dsimp only [bind, Except.bind]
      cases t.node? place with
      | none => rfl
      | some n =>
          cases n with
          | directory => rfl
          | file b => cases Path.endsInSlash path <;> rfl

/-- **A file is read where its path leads**, if the path does not end in a slash. -/
theorem read_eq_ok_iff : t.read path = .ok bytes ↔
    ∃ place, t.locate path = .ok place ∧ t.node? place = some (.file bytes) ∧
      Path.endsInSlash path = false := by
  rw [read_eq]
  cases t.locate path with
  | error e => exact ⟨nofun, fun ⟨_, h, _⟩ => nomatch h⟩
  | ok place =>
      simp only [Except.ok.injEq, exists_eq_left']
      split
      · rename_i hnode
        simp [hnode]
      · rename_i hnode
        simp [hnode]
      · rename_i b hnode
        cases Path.endsInSlash path <;> simp [hnode]

/-- No file is changed where a tree only has more in it. -/
theorem Adds.read (h : t.Adds t') (hread : t.read path = .ok bytes) : t'.read path = .ok bytes := by
  obtain ⟨place, hlocate, hnode, hslash⟩ := read_eq_ok_iff.mp hread
  exact read_eq_ok_iff.mpr ⟨place, h.grows.locate hlocate, h.node hnode, hslash⟩

/-! ### Tasks -/

/-- The tree that a task leaves. -/
def treeOf {α : Type} : EStateM.Result FileError FileTree α → FileTree
  | .ok _ t    => t
  | .error _ t => t

theorem write_eq (t : FileTree) (path : String) (bytes : List UInt8) : (write path bytes).run t =
    match t.locate path with
    | .error e  => .error e t
    | .ok place =>
      if Path.endsInSlash path then .error .isDirectory t
      else if t.node? place = some .directory then .error .isDirectory t
      else .ok () (t.put place (.file bytes)) := by
  show EStateM.bind (MonadExcept.ofExcept (t.locate path)) _ t = _
  cases t.locate path with
  | error e => rfl
  | ok place =>
      show (ite _ _ _ : FileTask Unit) t = _
      dsimp only
      split
      · rfl
      · cases hnode : t.node? place with
        | none =>
            rw [if_neg nofun]
            rfl
        | some n => cases n <;> rfl

theorem write_eq_ok_iff : (write path bytes).run t = .ok () t' ↔
    ∃ place, t.locate path = .ok place ∧ Path.endsInSlash path = false ∧
      t.node? place ≠ some .directory ∧ t' = t.put place (.file bytes) := by
  rw [write_eq]
  cases t.locate path with
  | error e => exact ⟨nofun, fun ⟨_, h, _⟩ => nomatch h⟩
  | ok place =>
      simp only [Except.ok.injEq, exists_eq_left']
      split
      · rename_i hslash
        simp [hslash]
      · rename_i hslash
        split
        · rename_i hnode
          simp [hnode]
        · rename_i hnode
          simp [hslash, hnode, eq_comm]

/-- A file that cannot be written is not written. -/
theorem write_of_error (h : (write path bytes).run t = .error e t') : t' = t := by
  rw [write_eq] at h
  split at h
  · cases h
    rfl
  · split at h
    · cases h
      rfl
    · split at h
      · cases h
        rfl
      · cases h

/-- **A file that is written is read back, and no other file is changed.** -/
theorem read_write (h : (write path bytes).run t = .ok () t') :
    t'.read path = .ok bytes ∧
    ∀ {other b}, t.read other = .ok b → t'.locate other ≠ t'.locate path →
      t'.read other = .ok b := by
  obtain ⟨place, hlocate, hslash, hnode, rfl⟩ := write_eq_ok_iff.mp h
  have hgrows := grows_put_file hnode bytes
  have hput := node?_put t (ne_nil_of_node? hnode) (.file bytes)
  constructor
  · refine read_eq_ok_iff.mpr ⟨place, hgrows.locate hlocate, ?_, hslash⟩
    rw [hput, if_pos rfl]
  · intro other b hread hother
    obtain ⟨place', hlocate', hnode', hslash'⟩ := read_eq_ok_iff.mp hread
    rw [hgrows.locate hlocate', hgrows.locate hlocate, ne_eq, Except.ok.injEq] at hother
    refine read_eq_ok_iff.mpr ⟨place', hgrows.locate hlocate', ?_, hslash'⟩
    rw [hput, if_neg (Ne.symm hother), hnode']

/-- One name of `makeDirectoriesFrom`. -/
theorem makeDirectoriesFrom_cons (place : List String) (n : String) (names : List String)
    (t : FileTree) : (makeDirectoriesFrom place (n :: names)).run t =
      if n = "." then (makeDirectoriesFrom place names).run t
      else if n = ".." then (makeDirectoriesFrom place.dropLast names).run t
      else
        match t.node? (place ++ [n]) with
        | some .directory => (makeDirectoriesFrom (place ++ [n]) names).run t
        | some (.file _)  => .error (if names = [] then .alreadyThere else .notDirectory) t
        | none            =>
          (makeDirectoriesFrom (place ++ [n]) names).run (t.put (place ++ [n]) .directory) := by
  rw [makeDirectoriesFrom]
  split
  · rfl
  · split
    · rfl
    · dsimp only [EStateM.run, bind, EStateM.bind, get, getThe, MonadStateOf.get, EStateM.get]
      cases t.node? (place ++ [n]) with
      | none => rfl
      | some node => cases node <;> rfl

/-- **Making directories only adds to a tree**, whether it succeeds or not. -/
theorem makeDirectoriesFrom_adds (place names : List String) (t : FileTree) :
    t.Adds (treeOf ((makeDirectoriesFrom place names).run t)) := by
  induction names generalizing place t with
  | nil => exact .refl t
  | cons n names ih =>
      rw [makeDirectoriesFrom_cons]
      split
      · exact ih place t
      · split
        · exact ih place.dropLast t
        · split
          · exact ih _ t
          · exact .refl t
          · rename_i hnode
            exact (adds_put_directory hnode).trans (ih _ _)

theorem makeDirectories_adds (path : String) (t : FileTree) :
    t.Adds (treeOf ((makeDirectories path).run t)) :=
  makeDirectoriesFrom_adds (t.startOf path) (Path.names path) t

end ThreatModel.FileTree
