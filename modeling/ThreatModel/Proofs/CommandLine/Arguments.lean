import ThreatModel.Proofs.Settings.Loading
import ThreatModel.CommandLine.Command

/-!
# Arguments — what words ask for, however they are written

A command does not see its words but its files and the value of each option.  An `Invocation` is
that much, for all commands at once, and `AskedBy` says that words ask a command for it: options
may stand anywhere, under either name, in one word or in two, more than once.  Two facts of reading
are needed to compare commands:

* `given_mem_flags`: no option is read that the command does not have;
* `check_eq_ok_iff`: arguments pass if there are files, if every path leads to a file and if the
  format is one of the list; options a command does not have play no part.

`words` writes an invocation down, so that each one is asked for by some words (`askedBy_words`).
-/

namespace ThreatModel.CommandLine

/-! ### Only the command's options are read -/

/-- All options of a word are among these. -/
structure OptionWord.Within (flags : List Flag) (w : OptionWord) : Prop where
  given : ∀ s ∈ w.given, s.1 ∈ flags
  opened : ∀ s, w.open? = some s → s.1 ∈ flags

variable {flags : List Flag} {f : Flag} {w : OptionWord} {a : Arguments} {t : FileTree}

theorem OptionWord.Within.ofGiven {v : String} (hf : f ∈ flags) :
    OptionWord.Within flags ⟨[(f, v)], none⟩ :=
  ⟨fun _ hs => List.mem_singleton.mp hs ▸ hf, nofun⟩

theorem OptionWord.Within.ofOpen {name : String} (hf : f ∈ flags) :
    OptionWord.Within flags ⟨[], some (f, name)⟩ :=
  ⟨nofun, fun _ hs => Option.some.inj hs ▸ hf⟩

theorem within_of_readLetters {cs : List Char} (h : readLetters flags cs = .ok w) :
    w.Within flags := by
  induction cs generalizing w with
  | nil =>
      cases h
      exact ⟨nofun, nofun⟩
  | cons c cs ih =>
      rw [readLetters] at h
      split at h
      · cases h
      · rename_i f hfind
        have hf : f ∈ flags := List.mem_of_find?_eq_some hfind
        split at h
        · split at h
          · cases h
            exact .ofOpen hf
          · cases h
            exact .ofGiven hf
        · cases hmore : readLetters flags cs with
          | error e =>
              rw [hmore] at h
              cases h
          | ok more =>
              rw [hmore] at h
              cases h
              refine ⟨fun s hs => ?_, (ih hmore).opened⟩
              rcases List.mem_cons.mp hs with rfl | hs
              · exact hf
              · exact (ih hmore).given s hs

theorem within_of_readOption {word : List Char} (h : readOption flags word = .ok w) :
    w.Within flags := by
  rw [readOption] at h
  dsimp only at h
  split at h
  · rename_i f v hfind _
    split at h
    · cases h
      exact .ofGiven (List.mem_of_find?_eq_some hfind)
    · cases h
  · rename_i f hfind _
    cases h
    split
    · exact .ofOpen (List.mem_of_find?_eq_some hfind)
    · exact .ofGiven (List.mem_of_find?_eq_some hfind)
  · split at h
    · cases h
    · exact within_of_readLetters h
    · cases h
      exact ⟨nofun, nofun⟩

namespace Arguments

theorem given_mem_flags {ws : List String} (h : read flags ws = .ok a) :
    ∀ s ∈ a.given, s.1 ∈ flags := by
  have hmap {ws : List String} {g : Arguments → Arguments} {a : Arguments}
      (h : (read flags ws).map g = .ok a) : ∃ b, read flags ws = .ok b ∧ g b = a := by
    cases hread : read flags ws with
    | error e =>
        rw [hread] at h
        cases h
    | ok b =>
        rw [hread] at h
        exact ⟨b, rfl, Except.ok.inj h⟩
  fun_induction read flags ws generalizing a with
  | case1 =>
      cases h
      exact nofun
  | case2 others =>
      cases h
      exact nofun
  | case3 word others _ _ e _ => cases h
  | case4 word others _ _ given hword ih =>
      obtain ⟨b, hb, rfl⟩ := hmap h
      intro s hs
      rcases List.mem_append.mp hs with hs | hs
      · exact (within_of_readOption hword).given s hs
      · exact ih hb s hs
  | case5 word _ _ given f name _ => cases h
  | case6 word _ _ given f name hword value others ih =>
      obtain ⟨b, hb, rfl⟩ := hmap h
      intro s hs
      rcases List.mem_append.mp hs with hs | hs
      · rcases List.mem_append.mp hs with hs | hs
        · exact (within_of_readOption hword).given s hs
        · rw [List.mem_singleton.mp hs]
          exact (within_of_readOption hword).opened (f, name) rfl
      · exact ih hb s hs
  | case7 word others _ _ ih =>
      obtain ⟨b, hb, rfl⟩ := hmap h
      exact fun s hs => ih hb s hs

/-- An option has no value if and only if it is not given. -/
theorem value?_eq_none_iff : a.value? f = none ↔ ∀ s ∈ a.given, s.1 ≠ f := by
  simp [value?]

theorem mem_given_of_value? {v : String} (h : a.value? f = some v) : (f, v) ∈ a.given := by
  rw [value?, Option.map_eq_some_iff] at h
  obtain ⟨⟨g, v⟩, hfind, rfl⟩ := h
  have hg : g = f := by simpa using List.find?_some hfind
  exact hg ▸ List.mem_reverse.mp (List.mem_of_find?_eq_some hfind)

/-- An option that the command does not have has no value. -/
theorem value?_eq_none {ws : List String} (h : read flags ws = .ok a) (hf : f ∉ flags) :
    a.value? f = none :=
  value?_eq_none_iff.mpr fun s hs heq => hf (heq ▸ given_mem_flags h s hs)

/-! ### When arguments pass -/

/-- A list passes when each of its members does. -/
theorem forM_eq_ok_iff {α ε : Type} {check : α → Except ε Unit} {xs : List α} :
    xs.forM check = .ok () ↔ ∀ x ∈ xs, check x = .ok () := by
  induction xs with
  | nil => exact ⟨fun _ => nofun, fun _ => rfl⟩
  | cons x xs ih =>
      rw [List.forall_mem_cons, ← ih]
      show (check x >>= fun _ => xs.forM check) = _ ↔ _
      cases check x with
      | error e => exact ⟨nofun, fun h => nomatch h.1⟩
      | ok u => exact ⟨fun h => ⟨rfl, h⟩, fun h => h.2⟩

theorem checkFile_eq_ok_iff {p : Parameter} {path : String} :
    checkFile t p path = .ok () ↔ t.isFile path = true := by
  rw [checkFile, FileTree.isFile]
  cases t.lookup path with
  | error e => simp
  | ok n => cases n <;> simp

/-- Settings that are a file, and a format of the list. -/
structure Usable (t : FileTree) (config format : Option String) : Prop where
  config : ∀ path, config = some path → t.isFile path = true
  format : ∀ v, format = some v → v ∈ DiagramSettings.formats

theorem checkFlag_eq_ok_iff : checkFlag t a f = .ok () ↔
    (f = .config → ∀ path, a.value? f = some path → t.isFile path = true) ∧
      (f = .format → ∀ v, a.value? f = some v → v ∈ DiagramSettings.formats) := by
  rw [checkFlag.eq_def]
  split
  · rename_i path hvalue
    rw [checkFile_eq_ok_iff]
    exact ⟨fun h => ⟨fun _ p hp => Option.some.inj (hvalue.symm.trans hp) ▸ h, nofun⟩,
      fun h => h.1 rfl path hvalue⟩
  · rename_i v hvalue
    constructor
    · intro h
      refine ⟨nofun, fun _ v' hv' => ?_⟩
      rw [← Option.some.inj (hvalue.symm.trans hv')]
      split at h
      · assumption
      · cases h
    · intro h
      rw [if_pos (h.2 rfl v hvalue)]
  · rename_i hconfig hformat
    refine ⟨fun _ => ⟨fun hf p hp => ?_, fun hf v hv => ?_⟩, fun _ => rfl⟩
    · exact absurd hp (hconfig p hf)
    · exact absurd hv (hformat v hf)

theorem flags_pass_iff : (∀ s ∈ a.given, checkFlag t a s.1 = .ok ()) ↔
    Usable t (a.value? .config) (a.value? .format) := by
  constructor
  · intro h
    constructor
    · intro path hpath
      exact (checkFlag_eq_ok_iff.mp (h _ (mem_given_of_value? hpath))).1 rfl path hpath
    · intro v hv
      exact (checkFlag_eq_ok_iff.mp (h _ (mem_given_of_value? hv))).2 rfl v hv
  · intro h s _
    refine checkFlag_eq_ok_iff.mpr ⟨fun hf path hpath => ?_, fun hf v hv => ?_⟩
    · exact h.config path (hf ▸ hpath)
    · exact h.format v (hf ▸ hv)

/-- **Arguments pass by their files, their settings and their format.** -/
theorem check_eq_ok_iff : a.check t = .ok () ↔
    Usable t (a.value? .config) (a.value? .format) ∧
      a.files ≠ [] ∧ ∀ path ∈ a.files, t.isFile path = true := by
  have hfiles : a.files.forM (checkFile t .files) = .ok () ↔
      ∀ path ∈ a.files, t.isFile path = true := by
    simp only [forM_eq_ok_iff, checkFile_eq_ok_iff]
  rw [← flags_pass_iff, ← forM_eq_ok_iff, ← hfiles, check]
  cases a.given.forM (fun s => checkFlag t a s.1) with
  | error e => exact ⟨nofun, fun h => nomatch h.1⟩
  | ok u =>
      show (if a.files = [] then _ else a.files.forM (checkFile t .files)) = _ ↔ _
      by_cases hnil : a.files = []
      · rw [if_pos hnil]
        exact ⟨nofun, fun h => absurd hnil h.2.1⟩
      · rw [if_neg hnil]
        exact ⟨fun h => ⟨rfl, hnil, h⟩, fun h => h.2.2⟩

end Arguments

/-! ### Invocations -/

/-- Files and the values of options, as far as they are given. -/
structure Invocation where
  files : List String
  config : Option String := none
  title : Option String := none
  output : Option String := none
  format : Option String := none

namespace Invocation

/-- The value of an option. -/
def value? (i : Invocation) : Flag → Option String
  | .config  => i.config
  | .title   => i.title
  | .output  => i.output
  | .format  => i.format
  | .verbose => none

/-- The arguments give a command these files, and its own options these values.  Whether events are
printed is left open. -/
structure GivenBy (i : Invocation) (cmd : Command) (a : Arguments) : Prop where
  files : a.files = i.files
  value : ∀ f ∈ cmd.flags, f.takesValue → a.value? f = i.value? f

/-- The words ask a command for it. -/
def AskedBy (i : Invocation) (cmd : Command) (ws : List String) : Prop :=
  ∃ a, Arguments.read cmd.flags ws = .ok a ∧ i.GivenBy cmd a

/-- The options of a command that have a value. -/
def settings (i : Invocation) (cmd : Command) : List Setting :=
  cmd.flags.filterMap fun f => (i.value? f).map (f, ·)

/-- An invocation in words: the long names of options, each before its value, then the files. -/
def words (i : Invocation) (cmd : Command) : List String :=
  (i.settings cmd).flatMap (fun s => [s.1.long, s.2]) ++ "--" :: i.files

end Invocation

theorem Flag.long_inj {f g : Flag} (h : f.long = g.long) : f = g := by
  cases f <;> cases g <;> first | rfl | exact absurd h (by decide)

theorem find?_long (hf : f ∈ flags) : flags.find? (·.long = f.long) = some f := by
  cases hfind : flags.find? (·.long = f.long) with
  | none => exact absurd (decide_eq_true rfl) (List.find?_eq_none.mp hfind f hf)
  | some g => rw [Flag.long_inj (by simpa using List.find?_some hfind : g.long = f.long)]

theorem readOption_long (hf : f ∈ flags) (hvalue : f.takesValue) :
    readOption flags f.long.toList = .ok ⟨[], some (f, f.long)⟩ := by
  have hcut : cutAtEquals f.long.toList = (f.long.toList, none) := by cases f <;> decide
  rw [readOption, hcut]
  simp only [String.ofList_toList, find?_long hf, hvalue]
  rfl

/-- Long names with their values behind them are read back. -/
theorem read_settings {given : List Setting} (hgiven : ∀ s ∈ given, s.1 ∈ flags ∧ s.1.takesValue)
    (files : List String) :
    Arguments.read flags (given.flatMap (fun s => [s.1.long, s.2]) ++ "--" :: files) =
      .ok ⟨given, files⟩ := by
  induction given with
  | nil =>
      rw [List.flatMap_nil, List.nil_append, Arguments.read, if_pos rfl]
  | cons s given ih =>
      obtain ⟨hf, hvalue⟩ := hgiven s (List.mem_cons_self ..)
      have hdashes : s.1.long ≠ "--" := by cases s.1 <;> decide
      have hoption : isOption s.1.long.toList = true := by cases s.1 <;> decide
      rw [List.flatMap_cons, List.append_assoc, List.cons_append, List.cons_append, List.nil_append,
        Arguments.read, if_neg hdashes, if_pos hoption, readOption_long hf hvalue]
      dsimp only
      rw [ih fun s hs => hgiven s (List.mem_cons_of_mem _ hs)]
      rfl

namespace Invocation

variable {i : Invocation} {cmd : Command}

theorem mem_settings {s : Setting} :
    s ∈ i.settings cmd ↔ s.1 ∈ cmd.flags ∧ i.value? s.1 = some s.2 := by
  rw [settings, List.mem_filterMap]
  constructor
  · rintro ⟨f, hf, hs⟩
    obtain ⟨v, hv, rfl⟩ := Option.map_eq_some_iff.mp hs
    exact ⟨hf, hv⟩
  · rintro ⟨hf, hv⟩
    exact ⟨s.1, hf, by rw [hv]; rfl⟩

/-- **Every invocation is asked for by its words.** -/
theorem askedBy_words (i : Invocation) (cmd : Command) : i.AskedBy cmd (i.words cmd) := by
  refine ⟨⟨i.settings cmd, i.files⟩, read_settings (fun s hs => ?_) i.files, rfl,
    fun f hf _ => ?_⟩
  · obtain ⟨hf, hv⟩ := mem_settings.mp hs
    refine ⟨hf, ?_⟩
    cases hs : s.1 with
    | verbose =>
        rw [hs] at hv
        cases hv
    | _ => rfl
  · cases hv : Arguments.value? ⟨i.settings cmd, i.files⟩ f with
    | none =>
        cases hi : i.value? f with
        | none => rfl
        | some v =>
            exact absurd rfl (Arguments.value?_eq_none_iff.mp hv (f, v) (mem_settings.mpr ⟨hf, hi⟩))
    | some v => exact ((mem_settings.mp (Arguments.mem_given_of_value? hv)).2).symm

theorem GivenBy.config (h : i.GivenBy cmd a) : a.value? .config = i.config :=
  h.value .config (by cases cmd <;> decide) rfl

/-- There are files, and every path leads to a file. -/
structure Passes (i : Invocation) (t : FileTree) : Prop where
  config : ∀ path, i.config = some path → t.isFile path = true
  nonempty : i.files ≠ []
  files : ∀ path ∈ i.files, t.isFile path = true

/-- **Which arguments pass does not depend on the command**, if the format is one of the list. -/
theorem check_eq_ok_iff (hformat : ∀ v, i.format = some v → v ∈ DiagramSettings.formats)
    {ws : List String} (hread : Arguments.read cmd.flags ws = .ok a) (h : i.GivenBy cmd a) :
    a.check t = .ok () ↔ i.Passes t := by
  have hvalue : ∀ v, a.value? .format = some v → v ∈ DiagramSettings.formats := by
    intro v hv
    by_cases hmem : Flag.format ∈ cmd.flags
    · exact hformat v ((h.value .format hmem rfl).symm.trans hv)
    · rw [Arguments.value?_eq_none hread hmem] at hv
      cases hv
  rw [Arguments.check_eq_ok_iff, h.config, h.files]
  exact ⟨fun ⟨husable, hnonempty, hfiles⟩ => ⟨husable.config, hnonempty, hfiles⟩,
    fun hpasses => ⟨⟨hpasses.config, hvalue⟩, hpasses.nonempty, hpasses.files⟩⟩

end Invocation

end ThreatModel.CommandLine
