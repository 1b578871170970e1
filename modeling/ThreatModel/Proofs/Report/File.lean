import ThreatModel.Proofs.FileTree.Writing
import ThreatModel.Proofs.Text.Utf8
import ThreatModel.Report.File

/-!
# Reports in files — what is read back

A report is written as UTF-8.  From the path that `writeTo` gives its text is read back, and every
other file is as it was (`read_writeTo`).  If the report cannot be written, no file has changed at
all; directories that were made on the way stay (`read_of_writeTo_error`).
-/

namespace ThreatModel.Report

variable {f : Facts} {title : Option String} {path path' : String} {t t' : FileTree} {e : FileError}

theorem writeTo_eq (f : Facts) (title : Option String) (path : String) (t : FileTree) :
    (writeTo f title path).run t =
      match (FileTree.makeDirectories (Path.parent path)).run t with
      | .error e u => .error e u
      | .ok _ u    =>
        match (FileTree.write (Path.normal path) (Text.encode (ofFacts f title).toList)).run u with
        | .error e t' => .error e t'
        | .ok _ t'    => .ok (Path.normal path) t' := by
  rw [writeTo, EStateM.run_bind]
  cases (FileTree.makeDirectories (Path.parent path)).run t with
  | error e u => rfl
  | ok _ u =>
      dsimp only
      rw [EStateM.run_bind]
      cases (FileTree.write (Path.normal path) (Text.encode (ofFacts f title).toList)).run u with
      | error e t' => rfl
      | ok _ t' => rfl

/-- **A report that is written is read back, and no other file is changed.** -/
theorem read_writeTo (h : (writeTo f title path).run t = .ok path' t') :
    path' = Path.normal path ∧
    (∃ bytes, t'.read path' = .ok bytes ∧ Text.decode? bytes = some (ofFacts f title).toList) ∧
    ∀ {other b}, t.read other = .ok b → t'.locate other ≠ t'.locate path' →
      t'.read other = .ok b := by
  have hadds := FileTree.makeDirectories_adds (Path.parent path) t
  rw [writeTo_eq] at h
  split at h
  · cases h
  · rename_i u hmade
    rw [hmade] at hadds
    split at h
    · cases h
    · rename_i t'' hwritten
      cases h
      obtain ⟨hread, hothers⟩ := FileTree.read_write hwritten
      exact ⟨rfl, ⟨_, hread, Text.decode?_encode _⟩, fun hother hne => hothers (hadds.read hother) hne⟩

/-- **A report that cannot be written changes no file.** -/
theorem read_of_writeTo_error (h : (writeTo f title path).run t = .error e t') {other : String}
    {b : List UInt8} (hread : t.read other = .ok b) : t'.read other = .ok b := by
  have hadds := FileTree.makeDirectories_adds (Path.parent path) t
  rw [writeTo_eq] at h
  split at h
  · rename_i hmade
    rw [hmade] at hadds
    cases h
    exact hadds.read hread
  · rename_i u hmade
    rw [hmade] at hadds
    split at h
    · rename_i hwritten
      cases h
      rw [FileTree.write_of_error hwritten]
      exact hadds.read hread
    · cases h

end ThreatModel.Report
