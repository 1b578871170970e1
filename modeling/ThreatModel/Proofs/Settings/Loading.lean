import ThreatModel.Settings.File

/-!
# Loading — when a file gives no settings

The settings come from one file at most: the named one, or else the default file if it is there.
Of the errors, four are reported with the path of the file.  The others are not, and a session has
no answer to them.  `Unanswered` says from which bytes they arise, for any loader: from bytes that
are not UTF-8, from a mapping with a key at its top that is no text, and from what the loader
breaks down over.  A loader that finds a fault and tells it, in the document or in its entries, is
always reported (`load_unreported_iff`).
-/

namespace ThreatModel

/-- An error that is reported as an invalid configuration. -/
def SettingsError.isReported : SettingsError → Bool
  | notText     => false
  | keyNotText  => false
  | breakdown _ => false
  | _           => true

namespace FileTree

theorem isFile_iff {t : FileTree} {path : String} :
    t.isFile path = true ↔ ∃ bytes, t.read path = .ok bytes := by
  rw [isFile, read]
  cases t.lookup path with
  | error e => exact ⟨nofun, nofun⟩
  | ok n =>
      cases n with
      | file bytes => exact ⟨fun _ => ⟨bytes, rfl⟩, fun _ => rfl⟩
      | directory => exact ⟨nofun, nofun⟩

end FileTree

namespace Settings

/-- The path of the file that settings are read from, in normal form. -/
def filePath (path? : Option String) : String := Path.normal (path?.getD defaultFile)

/-- The bytes of that file, if it is there. -/
def content? (t : FileTree) (path? : Option String) : Option (List UInt8) :=
  (t.read (filePath path?)).toOption

/-- Bytes that give no settings and of which nothing is reported, with the error they give. -/
inductive Loader.Unanswered (L : Loader) (bytes : List UInt8) : SettingsError → Prop
  | notText (htext : Text.decode? bytes = none) (hdoc : L.document bytes = .error .notText) :
      Unanswered L bytes .notText
  | document {b : Breakdown} (hdoc : L.document bytes = .error (.breakdown b)) :
      Unanswered L bytes (.breakdown b)
  | key {es : List (Value × Value)} (hdoc : L.document bytes = .ok (some (.map es)))
      (hkey : ∃ e ∈ es, e.1.text? = none) : Unanswered L bytes .keyNotText
  | entries {es : List (Value × Value)} {b : Breakdown}
      (hdoc : L.document bytes = .ok (some (.map es))) (hkeys : ∀ e ∈ es, e.1.text?.isSome)
      (hes : L.settings es = .error (.breakdown b)) : Unanswered L bytes (.breakdown b)

variable {L : Loader} {t : FileTree} {path : String} {path? : Option String} {bytes : List UInt8}
  {e : SettingsError}

theorem normal_defaultFile : Path.normal defaultFile = defaultFile := by decide +kernel

theorem loadFile_eq (L : Loader) (t : FileTree) (path : String) : loadFile L t path =
    match t.read (Path.normal path) with
    | .error _  => ([], .error (.noFile (Path.normal path)))
    | .ok bytes =>
      ([.loadingConfiguration (Path.normal path)], ofBytes L (Path.normal path) bytes) := by
  rfl

/-- **The settings are those of the file.**  Without it there are the default settings, unless it is
missed by name. -/
theorem load_snd (L : Loader) (t : FileTree) (path? : Option String) : (load L t path?).2 =
    match content? t path?, path? with
    | some bytes, _         => ofBytes L (filePath path?) bytes
    | none,       some path => .error (.noFile (Path.normal path))
    | none,       none      => .ok {} := by
  cases path? with
  | some path =>
      rw [load, content?, filePath, Option.getD_some, loadFile_eq]
      cases t.read (Path.normal path) <;> rfl
  | none =>
      rw [load, content?, filePath, Option.getD_none, normal_defaultFile]
      split
      · rename_i hfile
        obtain ⟨bytes, hbytes⟩ := FileTree.isFile_iff.mp hfile
        rw [loadFile_eq, normal_defaultFile, hbytes]
        rfl
      · rename_i hfile
        cases hread : t.read defaultFile with
        | error e => rfl
        | ok bytes => exact absurd (FileTree.isFile_iff.mpr ⟨bytes, hread⟩) hfile

theorem load_of_content? (h : content? t path? = some bytes) :
    (load L t path?).2 = ofBytes L (filePath path?) bytes := by
  rw [load_snd, h]

/-! ### The errors that are not reported -/

/-- All keys are texts, or one of them is not. -/
theorem texts_or_key (es : List (Value × Value)) :
    (∀ e ∈ es, e.1.text?.isSome) ∨ ∃ e ∈ es, e.1.text? = none := by
  rcases Classical.em (∃ e ∈ es, e.1.text? = none) with h | h
  · exact .inr h
  · refine .inl fun e he => ?_
    cases hkey : e.1.text? with
    | none => exact absurd ⟨e, he, hkey⟩ h
    | some s => rfl

theorem ofTop_of_texts {es : List (Value × Value)} (h : ∀ e ∈ es, e.1.text?.isSome) :
    ofTop L path es =
      match L.settings es with
      | .ok s                 => .ok s
      | .error (.invalid is)  => .error (.invalid path is)
      | .error (.breakdown b) => .error (.breakdown b) :=
  if_pos (List.all_eq_true.mpr h)

theorem ofTop_of_key {es : List (Value × Value)} (h : ∃ e ∈ es, e.1.text? = none) :
    ofTop L path es = .error .keyNotText := by
  refine if_neg fun hall => ?_
  obtain ⟨e, he, hnone⟩ := h
  have hsome := List.all_eq_true.mp hall e he
  rw [hnone] at hsome
  cases hsome

/-- The errors of bytes that are not reported come from such bytes. -/
theorem unanswered_of_ofBytes (h : ofBytes L path bytes = .error e)
    (hreported : e.isReported = false) : L.Unanswered bytes e := by
  rw [ofBytes] at h
  split at h
  · rename_i doc hdoc
    rw [ofDocument.eq_def] at h
    split at h
    · cases h
    · cases h
    · rename_i es
      rcases texts_or_key es with hkeys | hkey
      · rw [ofTop_of_texts hkeys] at h
        split at h
        · cases h
        · cases h
          cases hreported
        · rename_i b hes
          cases h
          exact .entries hdoc hkeys hes
      · rw [ofTop_of_key hkey] at h
        cases h
        exact .key hdoc hkey
    · cases h
      cases hreported
  · cases h
    cases hreported
  · rename_i hdoc
    cases h
    exact .notText (L.decode?_of_notText hdoc) hdoc
  · rename_i b hdoc
    cases h
    exact .document hdoc

/-- Such bytes give the error, and it is not reported. -/
theorem ofBytes_of_unanswered (path : String) (h : L.Unanswered bytes e) :
    ofBytes L path bytes = .error e ∧ e.isReported = false := by
  cases h with
  | notText htext hdoc => exact ⟨by rw [ofBytes, hdoc], rfl⟩
  | document hdoc => exact ⟨by rw [ofBytes, hdoc], rfl⟩
  | key hdoc hkey =>
      refine ⟨?_, rfl⟩
      rw [ofBytes, hdoc]
      exact ofTop_of_key hkey
  | entries hdoc hkeys hes =>
      refine ⟨?_, rfl⟩
      rw [ofBytes, hdoc]
      exact (ofTop_of_texts hkeys).trans (by rw [hes])

/-- **Which files give an error that is not reported**, and which error. -/
theorem load_unreported_iff : (load L t path?).2 = .error e ∧ e.isReported = false ↔
    ∃ bytes, content? t path? = some bytes ∧ L.Unanswered bytes e := by
  rw [load_snd]
  cases content? t path? with
  | some bytes =>
      constructor
      · rintro ⟨h, hreported⟩
        exact ⟨bytes, rfl, unanswered_of_ofBytes h hreported⟩
      · rintro ⟨_, ⟨⟩, h⟩
        exact ofBytes_of_unanswered (filePath path?) h
  | none =>
      refine ⟨fun ⟨h, hreported⟩ => ?_, fun ⟨_, h, _⟩ => nomatch h⟩
      cases path? with
      | some path =>
          cases h
          cases hreported
      | none => cases h

/-- Bytes that are not UTF-8 give no settings. -/
theorem exists_error_of_decode? (hbytes : content? t path? = some bytes)
    (htext : Text.decode? bytes = none) : ∃ e, (load L t path?).2 = .error e := by
  rw [load_of_content? hbytes, ofBytes]
  split
  · rename_i doc hdoc
    have hsome := L.decode?_of_document hdoc
    rw [htext] at hsome
    cases hsome
  · exact ⟨_, rfl⟩
  · exact ⟨_, rfl⟩
  · exact ⟨_, rfl⟩

end Settings

end ThreatModel
