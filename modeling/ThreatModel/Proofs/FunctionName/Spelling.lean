import ThreatModel.Facts.Record
import ThreatModel.Proofs.Pattern.Search

/-!
# Function names — every spelling of a function has one key

A function is known by a path, a package, a type and its own name; path and type may be absent
(`Name`).  A header spells it `[type.]function` in the package `[path/]package`, a call graph
`[path/]package.function` or `([*][path/]package.type).function`, with or without a number
behind `#` (`Spells`).

The spellings meet in the key of the name, its parts joined by colons (`key?_of_spells`).  The
proof follows `written` from left to right, one lemma for each place where the search has a
choice:
* the eager path ends at the last slash (`run_afterOpening_path`), or is absent
  (`run_afterOpening`);
* the lazy package ends at its first dot if another dot follows (`run_afterPath_package`), and
  is given up if none does (`run_afterPath_of_undotted`); the package then reads as the type;
* the lazy type ends at the parenthesis or the dot (`run_afterPackage`);
* the lazy function ends at the number or at the end of the text (`run_function`).

A name of any form that has a key has a dot, and a function behind it that is part of the key
(`of_key?`); so a key is never empty, and `key` gives it as it is (`key_of_key?`).
-/

namespace ThreatModel.FunctionName

open Pattern

/-! ### Names and their spellings -/

/-- A part of a name that holds none of the characters names are cut at. -/
def IsSegment (s : String) : Prop :=
  s ≠ "" ∧ ∀ c ∈ s.toList, c ∉ ['.', '/', '(', ')', '*', '#', '\n']

/-- A path: any text of one line that does not open like a receiver. -/
def IsPath (s : String) : Prop :=
  s ≠ "" ∧ '\n' ∉ s.toList ∧ s.toList.head? ≠ some '(' ∧ s.toList.head? ≠ some '*'

instance : DecidablePred IsSegment := fun s =>
  @instDecidableAnd _ _ _ (List.decidableBAll _ s.toList)

instance : DecidablePred IsPath := fun _ => inferInstanceAs (Decidable (_ ∧ _))

/-- The name of a function, in its parts. -/
structure Name where
  path : Option String
  package : String
  type : Option String
  function : String
  path_isPath : ∀ p ∈ path, IsPath p
  package_isSegment : IsSegment package
  type_isSegment : ∀ t ∈ type, IsSegment t
  function_isSegment : IsSegment function

namespace Name

/-- `[path/]package` -/
def packagePath (n : Name) : String :=
  match n.path with
  | some p => p ++ "/" ++ n.package
  | none   => n.package

/-- `[type.]function` -/
def member (n : Name) : String :=
  match n.type with
  | some t => t ++ "." ++ n.function
  | none   => n.function

/-- The parts that are there, joined by colons. -/
def key (n : Name) : String :=
  String.intercalate ":" (n.path.toList ++ n.package :: (n.type.toList ++ [n.function]))

end Name

/-- What may stand behind a name in a call graph: nothing, or `#` and digits. -/
def IsOrdinal (s : String) : Prop :=
  s = "" ∨ ∃ digits : String, s = "#" ++ digits ∧ digits ≠ "" ∧
    ∀ c ∈ digits.toList, Text.isDecimal c = true

/-- The spellings of a name in call graphs. -/
inductive Name.Spells (n : Name) : String → Prop where
  | function {ordinal : String} (hn : n.type = none) (ho : IsOrdinal ordinal) :
      n.Spells (n.packagePath ++ "." ++ n.function ++ ordinal)
  | method {star t ordinal : String} (hs : star = "" ∨ star = "*") (hn : n.type = some t)
      (ho : IsOrdinal ordinal) :
      n.Spells ("(" ++ star ++ n.packagePath ++ "." ++ t ++ ")." ++ n.function ++ ordinal)

/-- The header of the record spells the name. -/
def Name.Declares (n : Name) (r : FunctionRecord) : Prop :=
  (∃ p, r.package = some p ∧ p.name = n.packagePath) ∧ r.function = n.member

/-! ### The search, from the end of a name to its start -/

/-- What may be written behind the function. -/
def afterFunction : Pattern Part :=
  .chain [.optional (.capture .suffix (.chain ["#", .several true Text.isDecimal])), .finish]

/-- What is written behind the package. -/
def afterPackage : Pattern Part :=
  .chain [.optional (.field .type), .optional ")", ".", .field .function, afterFunction]

/-- What is written behind the path. -/
def afterPath : Pattern Part :=
  .chain [.optional (.chain [.field .package, "."]), afterPackage]

/-- What is written behind an opening parenthesis and a star. -/
def afterOpening : Pattern Part :=
  .chain [.optional (.chain [.capture .path (.several true notNewline), "/"]), afterPath]

/-- What is written in front of the dot behind which the function stands. -/
def beforeDot : Pattern Part :=
  .chain [.optional "(", .optional "*",
    .optional (.chain [.capture .path (.several true notNewline), "/"]),
    .optional (.chain [.field .package, "."]), .optional (.field .type), .optional ")"]

/-- What is written from that dot on. -/
def fromDot : Pattern Part := .chain [".", .field .function, afterFunction]

/-- The key that the parts of a match join to. -/
def joined (m : Match Part) : String :=
  joinParts [m.get? .path, m.get? .package, m.get? .type, m.get? .function]

theorem IsSegment.not_mem {s : String} (h : IsSegment s) {c : Char}
    (hc : c ∈ ['.', '/', '(', ')', '*', '#', '\n']) : c ∉ s.toList :=
  fun hm => h.2 c hm hc

theorem IsSegment.toList_ne_nil {s : String} (h : IsSegment s) : s.toList ≠ [] := by
  simpa using h.1

theorem IsOrdinal.not_mem {s : String} (h : IsOrdinal s) {c : Char} (hc : c ≠ '#')
    (hd : Text.isDecimal c = false) : c ∉ s.toList := by
  rcases h with rfl | ⟨digits, rfl, -, h⟩
  · simp
  · intro hm
    rw [String.toList_append, List.mem_append] at hm
    rcases hm with hm | hm
    · exact hc (by simpa using hm)
    · simp [h c hm] at hd

variable {α : Type} {k : List Char → Kept Part → Option α} {x : α} {kept : Kept Part}

/-- What the search keeps of an ordinal. -/
def ordinalKept : List Char → Kept Part
  | []     => []
  | c :: s => [(.suffix, ⟨c :: s, []⟩)]

theorem run_afterFunction {ordinal : String} (ho : IsOrdinal ordinal)
    (h : k [] (ordinalKept ordinal.toList ++ kept) = some x) :
    afterFunction.run k ordinal.toList kept = some x := by
  rcases ho with rfl | ⟨digits, rfl, hne, hd⟩
  · simpa [afterFunction, chain, Pattern.optional, run, afterText?, ordinalKept] using h
  · obtain ⟨d, ds, hds⟩ := List.exists_cons_of_ne_nil (l := digits.toList) (by simpa using hne)
    rw [String.toList_append, hds] at h ⊢
    rw [hds] at hd
    have hend : eagerly Text.isDecimal
        (fun r => finish.run k r ((.suffix, ⟨'#' :: d :: ds, r⟩) :: kept)) (ds ++ []) = some x :=
      eagerly_append (fun c hc => hd c (by simp [hc])) (by simpa [eagerly, run, ordinalKept] using h)
    rw [List.append_nil] at hend
    refine run_optional_of_some ?_
    simpa [chain, several, run, afterText?, hd d (by simp)] using hend

theorem run_afterFunction_of_ne {c : Char} {s : List Char} (hc : c ≠ '#') (hn : c ≠ '\n') :
    afterFunction.run k (c :: s) kept = none := by
  simp [afterFunction, chain, Pattern.optional, run, afterText?, hc.symm, hn]

/-- The function reaches to the ordinal. -/
theorem run_function_of_not_mem {f : List Char} {ordinal : String} (hne : f ≠ []) (hsharp : '#' ∉ f)
    (hn : '\n' ∉ f) (ho : IsOrdinal ordinal)
    (h : k [] (ordinalKept ordinal.toList ++
      (.function, ⟨f ++ ordinal.toList, ordinal.toList⟩) :: kept) = some x) :
    (chain [.field .function, afterFunction]).run k (f ++ ordinal.toList) kept = some x := by
  refine run_field hne hn ?_ (run_afterFunction ho h)
  rintro a b rfl - hb kept'
  obtain ⟨c, b, rfl⟩ := List.exists_cons_of_ne_nil hb
  exact run_afterFunction_of_ne (fun e => hsharp (by simp [e])) fun e => hn (by simp [e])

theorem run_function {f ordinal : String} (hf : IsSegment f) (ho : IsOrdinal ordinal)
    (h : k [] (ordinalKept ordinal.toList ++
      (.function, ⟨f.toList ++ ordinal.toList, ordinal.toList⟩) :: kept) = some x) :
    (chain [.field .function, afterFunction]).run k (f.toList ++ ordinal.toList) kept = some x :=
  run_function_of_not_mem hf.toList_ne_nil (hf.not_mem (by simp)) (hf.not_mem (by simp)) ho h

theorem run_afterPackage (close : List Char) {t rest : List Char} {K : List Char → Kept Part → Option α}
    (ht : t ≠ []) (hc : ∀ c ∈ t, c ≠ '.' ∧ c ≠ ')' ∧ c ≠ '\n') (hclose : close = [] ∨ close = [')'])
    (h : (chain [.field .function, afterFunction]).run K rest
      ((.type, ⟨t ++ (close ++ '.' :: rest), close ++ '.' :: rest⟩) :: kept) = some x) :
    afterPackage.run K (t ++ (close ++ '.' :: rest)) kept = some x := by
  refine run_optional_of_some (run_field ht (fun hm => (hc _ hm).2.2 rfl) ?_ ?_)
  · rintro a b hab - hb kept'
    obtain ⟨c, b, rfl⟩ := List.exists_cons_of_ne_nil hb
    obtain ⟨hdot, hpar, -⟩ := hc c (by simp [hab])
    simp [run_chain_cons, Pattern.optional, run, afterText?, hdot.symm, hpar.symm]
  · rcases hclose with rfl | rfl
    · exact (run_optional_of_none (by simp [run, afterText?])).trans ((run_lit "." _ _ _).trans h)
    · exact run_optional_of_some ((run_lit ")" _ _ _).trans ((run_lit "." _ _ _).trans h))

/-- Behind the package a dot is needed. -/
theorem run_afterPackage_of_not_mem {s : List Char} (h : '.' ∉ s) :
    afterPackage.run k s kept = none := by
  refine run_eq_none fun r hr => ?_
  obtain ⟨s₁, h₁, s₂, h₂, s₃, h₃, -⟩ := hr
  refine absurd ((h₂.suffix.trans h₁.suffix).subset ?_) h
  rw [show s₂ = '.' :: s₃ from h₃]
  exact List.mem_cons_self

theorem run_afterPath_package {p : List Char} {rest : List Char} (hp : p ≠ [])
    (hc : ∀ c ∈ p, c ≠ '.' ∧ c ≠ '\n')
    (h : afterPackage.run k rest ((.package, ⟨p ++ '.' :: rest, '.' :: rest⟩) :: kept) = some x) :
    afterPath.run k (p ++ '.' :: rest) kept = some x := by
  refine run_optional_of_some (run_field hp (fun hm => (hc _ hm).2 rfl) ?_ ?_)
  · rintro a b hab - hb kept'
    obtain ⟨c, b, rfl⟩ := List.exists_cons_of_ne_nil hb
    simp [chain, run, afterText?, (hc c (by simp [hab])).1.symm]
  · exact (run_lit "." _ _ _).trans h

/-- A text with one dot only has no package: what stands before the dot is read as the type. -/
theorem run_afterPath_of_undotted {p rest : List Char} (hp : '.' ∉ p) (hrest : '.' ∉ rest)
    (h : afterPackage.run k (p ++ '.' :: rest) kept = some x) :
    afterPath.run k (p ++ '.' :: rest) kept = some x := by
  refine (run_optional_of_none (run_eq_none fun r hr kept' => ?_)).trans h
  obtain ⟨s, hs, hr⟩ := hr
  have hr : s = '.' :: r := hr
  -- the dot in front of what is left is the only one of the text
  have hcount := hs.suffix.sublist.count_le '.'
  rw [hr, List.count_cons_self, List.count_append, List.count_cons_self,
    List.count_eq_zero_of_not_mem hp, List.count_eq_zero_of_not_mem hrest] at hcount
  exact run_afterPackage_of_not_mem (List.count_eq_zero.mp (by omega))

theorem run_afterOpening_path {p rest : List Char} (hp : p ≠ []) (hn : '\n' ∉ p)
    (hrest : '/' ∉ rest)
    (h : afterPath.run k rest ((.path, ⟨p ++ '/' :: rest, '/' :: rest⟩) :: kept) = some x) :
    afterOpening.run k (p ++ '/' :: rest) kept = some x := by
  obtain ⟨c, p, rfl⟩ := List.exists_cons_of_ne_nil hp
  have hline := notNewline_of_not_mem hn
  refine run_optional_of_some ?_
  simp only [chain, several, run, List.cons_append, hline c (by simp), if_true]
  refine eagerly_append (fun d hd => hline d (by simp [hd])) (eagerly_of_some ?_ ?_)
  · simpa [afterText?] using h
  · intro r hr
    cases r with
    | nil => rfl
    | cons d r =>
        have hd : '/' ≠ d := fun e => hrest (hr.subset (e ▸ List.mem_cons_self))
        simp [afterText?, hd]

theorem run_afterOpening {s : List Char} (hs : '/' ∉ s) (h : afterPath.run k s kept = some x) :
    afterOpening.run k s kept = some x := by
  refine (run_optional_of_none (run_eq_none fun r hr => ?_)).trans h
  obtain ⟨s₁, h₁, h₂⟩ := hr
  refine absurd (h₁.suffix.subset ?_) hs
  rw [show s₁ = '/' :: r from h₂]
  exact List.mem_cons_self

/-- What opens a name in a call graph or an annotation. -/
theorem run_written {opening s : List Char}
    (ho : opening = [] ∨ opening = ['('] ∨ opening = ['(', '*']) (hpar : s.head? ≠ some '(')
    (hstar : s.head? ≠ some '*') (h : afterOpening.run k s kept = some x) :
    written.run k (opening ++ s) kept = some x := by
  have hstar : (chain [.optional "*", afterOpening]).run k s kept = some x :=
    (run_optional_of_none (run_lit_of_head?_ne rfl hstar)).trans h
  rcases ho with rfl | rfl | rfl
  · exact (run_optional_of_none (run_lit_of_head?_ne rfl hpar)).trans hstar
  · exact run_optional_of_some ((run_lit "(" _ _ _).trans hstar)
  · exact run_optional_of_some ((run_lit "(" _ _ _).trans
      (run_optional_of_some ((run_lit "*" _ _ _).trans h)))

/-! ### Names that have a key -/

variable {w K : String}

/-- The search for a key ends at the dot behind which the function stands. -/
theorem key?_eq_run (w : String) :
    key? w = beforeDot.run (fromDot.run fun _ m => some (joined m)) w.toList [] := by
  rw [key?, match?, run_map]
  rfl

theorem intercalate_ne_nil {p : List Char} {ps : List (List Char)} (hp : p ∈ ps) (hne : p ≠ []) :
    [':'].intercalate ps ≠ [] := by
  cases ps with
  | nil => cases hp
  | cons q ps =>
      by_cases hps : ps = []
      · subst hps
        rw [List.intercalate_singleton, ← List.mem_singleton.mp hp]
        exact hne
      · rw [List.intercalate_cons_of_ne_nil hps]
        simp

theorem joinParts_ne_empty {parts : List (Option String)} {s : String} (h : some s ∈ parts)
    (hs : s ≠ "") : joinParts parts ≠ "" := by
  have hmem : s.toList ∈ ((parts.map (·.getD "")).filter (· ≠ "")).map String.toList :=
    List.mem_map_of_mem (List.mem_filter.mpr ⟨List.mem_map_of_mem h, by simpa using hs⟩)
  intro hempty
  refine intercalate_ne_nil hmem (by simpa using hs) ?_
  have hlist := congrArg String.toList hempty
  rwa [joinParts, String.toList_intercalate] at hlist

/-- A name that has a key has a dot with the function behind it, which is part of the key. -/
theorem of_key? (h : key? w = some K) :
    (∃ x y, w.toList = x ++ '.' :: y ∧ y ≠ []) ∧ K ≠ "" := by
  rw [key?_eq_run] at h
  obtain ⟨r, kept, hbefore, hrun⟩ := exists_reads_of_run h
  obtain ⟨r', m, hmem, hjoined⟩ := exists_mem_of_run hrun
  simp only [fromDot, mem_readings_chain_cons, chain_singleton, mem_readings_lit, field,
    mem_readings_capture_several] at hmem
  obtain ⟨_, _, ⟨rfl, rfl⟩, rest, _, ⟨function, hne, -, rfl, rfl⟩, hrest⟩ := hmem
  obtain ⟨x, hx⟩ := hbefore.suffix
  refine ⟨⟨x, function ++ rest, hx.symm, by simp [hne]⟩, ?_⟩
  have hget : Match.get? m .function = some (String.ofList function) := by
    rw [get?_of_mem_readings (by decide) hrest, Match.get?_cons_self]
  rw [← Option.some.inj hjoined]
  exact joinParts_ne_empty (s := String.ofList function) (by simp [hget]) (by simpa using hne)

theorem key_of_key? (h : key? w = some K) : key w = K := by
  rw [FunctionName.key, h]
  exact if_neg (of_key? h).2

/-! ### The spellings of a name -/

/-- What the search keeps of a name's path, in front of the package and what follows it. -/
def Name.pathKept (n : Name) (s : List Char) : Kept Part :=
  match n.path with
  | some p => [(.path, ⟨p.toList ++ '/' :: s, '/' :: s⟩)]
  | none   => []

/-- The search up to the package of a name. -/
theorem run_packagePath (n : Name) (opening : List Char) {rest : List Char}
    (ho : opening = [] ∨ opening = ['('] ∨ opening = ['(', '*']) (hrest : '/' ∉ rest)
    (h : afterPath.run k (n.package.toList ++ rest) (n.pathKept (n.package.toList ++ rest)) =
      some x) :
    written.run k (opening ++ (n.packagePath.toList ++ rest)) [] = some x := by
  have hpackage := n.package_isSegment
  have hslash : '/' ∉ n.package.toList ++ rest := by
    simp [hrest, hpackage.not_mem]
  cases hp : n.path with
  | none =>
      simp only [Name.packagePath, Name.pathKept, hp] at h ⊢
      obtain ⟨c, s, hs⟩ := List.exists_cons_of_ne_nil hpackage.toList_ne_nil
      have hc : c ∈ n.package.toList := by simp [hs]
      refine run_written ho ?_ ?_ (run_afterOpening hslash h)
      · simpa [hs] using fun e => hpackage.2 c hc (by simp [e])
      · simpa [hs] using fun e => hpackage.2 c hc (by simp [e])
  | some p =>
      obtain ⟨hne, hn, hpar, hstar⟩ := n.path_isPath p hp
      simp only [Name.packagePath, Name.pathKept, hp, String.toList_append] at h ⊢
      obtain ⟨c, s, hs⟩ := List.exists_cons_of_ne_nil (l := p.toList) (by simpa using hne)
      have hopen := run_afterOpening_path (by simpa using hne) hn hslash h
      simpa using run_written (s := p.toList ++ '/' :: (n.package.toList ++ rest)) ho
        (by simpa [hs] using hpar) (by simpa [hs] using hstar) hopen

theorem get?_ordinalKept {part : Part} (h : part ≠ .suffix) (ordinal : List Char) (m : Kept Part) :
    Match.get? (ordinalKept ordinal ++ m) part = Match.get? m part := by
  cases ordinal with
  | nil => rfl
  | cons c s => exact Match.get?_cons_of_ne _ _ h.symm

theorem joinParts_eq {parts : List (Option String)} (h : some "" ∉ parts) :
    joinParts parts = String.intercalate ":" (parts.filterMap id) := by
  refine congrArg (String.intercalate ":") ?_
  induction parts with
  | nil => rfl
  | cons part parts ih =>
      rw [List.mem_cons, not_or] at h
      cases part with
      | none => simpa using ih h.2
      | some s =>
          have hs : s ≠ "" := fun e => h.1 (by rw [e])
          simpa [hs] using ih h.2

theorem get?_pathKept_path (n : Name) (s : List Char) :
    Match.get? (n.pathKept s) .path = n.path := by
  cases hp : n.path with
  | none => simp [Name.pathKept, hp, Match.get?]
  | some p => simp [Name.pathKept, hp, Match.get?_cons_self]

theorem get?_pathKept_of_ne (n : Name) (s : List Char) {part : Part} (h : part ≠ .path) :
    Match.get? (n.pathKept s) part = none := by
  cases hp : n.path with
  | none => simp [Name.pathKept, hp, Match.get?]
  | some p => simp [Name.pathKept, hp, Match.get?, h.symm]

/-- The parts of a name, as the search finds them, join to its key; without a type, the package
may be found in the type's place. -/
theorem joinParts_eq_key (n : Name) {package type : Option String}
    (h : package.toList ++ type.toList = n.package :: n.type.toList) :
    joinParts [n.path, package, type, some n.function] = n.key := by
  have hmid : ∀ s ∈ package.toList ++ type.toList, s ≠ "" := by
    rw [h]
    intro s hs
    rcases List.mem_cons.mp hs with rfl | hs
    · exact n.package_isSegment.1
    · exact (n.type_isSegment s (by simpa using hs)).1
  have hempty : some "" ∉ [n.path, package, type, some n.function] := by
    intro hm
    simp only [List.mem_cons, List.not_mem_nil, or_false] at hm
    rcases hm with hm | hm | hm | hm
    · exact (n.path_isPath "" hm.symm).1 rfl
    · exact hmid "" (by simp [← hm]) rfl
    · exact hmid "" (by simp [← hm]) rfl
    · exact n.function_isSegment.1 (Option.some.inj hm).symm
  rw [joinParts_eq hempty, Name.key, ← List.cons_append, ← h]
  cases n.path <;> cases package <;> cases type <;> rfl

/-- A name with a type, in a call graph or in an annotation. -/
theorem key?_of_type (opening close : List Char) {n : Name} {t ordinal w : String}
    (ht : n.type = some t) (ho : opening = [] ∨ opening = ['('] ∨ opening = ['(', '*'])
    (hclose : close = [] ∨ close = [')']) (hord : IsOrdinal ordinal)
    (hw : w.toList = opening ++ (n.packagePath.toList ++
      '.' :: (t.toList ++ (close ++ '.' :: (n.function.toList ++ ordinal.toList))))) :
    key? w = some n.key := by
  have hp := n.package_isSegment
  have hs := n.type_isSegment t ht
  have hf := n.function_isSegment
  have hrest : '/' ∉ '.' :: (t.toList ++ (close ++ '.' :: (n.function.toList ++ ordinal.toList))) := by
    rcases hclose with rfl | rfl <;>
      simp [hs.not_mem, hf.not_mem, hord.not_mem (c := '/') (by decide) (by decide)]
  have hrun := run_packagePath n opening ho hrest <|
    run_afterPath_package (k := fun _ kept => some kept) hp.toList_ne_nil
      (fun c hc => ⟨fun e => hp.2 c hc (by simp [e]), fun e => hp.2 c hc (by simp [e])⟩) <|
    run_afterPackage close hs.toList_ne_nil
      (fun c hc => ⟨fun e => hs.2 c hc (by simp [e]), fun e => hs.2 c hc (by simp [e]),
        fun e => hs.2 c hc (by simp [e])⟩) hclose <|
    run_function hf hord rfl
  rw [key?, match?, hw, hrun, Option.map_some]
  simp only [get?_ordinalKept, Match.get?_cons_of_ne, Match.get?_cons_self,
    get?_pathKept_path, ne_eq, reduceCtorEq, not_false_eq_true, String.ofList_toList]
  exact congrArg some (joinParts_eq_key n (by simp [ht]))

/-- A name without a type, in a call graph or in an annotation. -/
theorem key?_of_no_type {n : Name} {ordinal w : String} (ht : n.type = none)
    (hord : IsOrdinal ordinal)
    (hw : w.toList = n.packagePath.toList ++ '.' :: (n.function.toList ++ ordinal.toList)) :
    key? w = some n.key := by
  have hp := n.package_isSegment
  have hf := n.function_isSegment
  have hdot : '.' ∉ n.function.toList ++ ordinal.toList := by
    simp [hf.not_mem, hord.not_mem (c := '.') (by decide) (by decide)]
  have hrest : '/' ∉ '.' :: (n.function.toList ++ ordinal.toList) := by
    simp [hf.not_mem, hord.not_mem (c := '/') (by decide) (by decide)]
  have hrun := run_packagePath n [] (.inl rfl) hrest <|
    run_afterPath_of_undotted (k := fun _ kept => some kept) (hp.not_mem (by simp)) hdot <|
    run_afterPackage [] hp.toList_ne_nil
      (fun c hc => ⟨fun e => hp.2 c hc (by simp [e]), fun e => hp.2 c hc (by simp [e]),
        fun e => hp.2 c hc (by simp [e])⟩) (.inl rfl) <|
    run_function hf hord rfl
  rw [List.nil_append] at hrun
  rw [key?, match?, hw, hrun, Option.map_some]
  simp only [get?_ordinalKept, Match.get?_cons_of_ne, Match.get?_cons_self,
    get?_pathKept_path, get?_pathKept_of_ne, ne_eq, reduceCtorEq, not_false_eq_true,
    String.ofList_toList]
  exact congrArg some (joinParts_eq_key n (by simp [ht]))

/-- The header of a name has its key. -/
theorem key_of_declares {n : Name} {r : FunctionRecord} (h : n.Declares r) : r.key = n.key := by
  obtain ⟨⟨p, hp, hname⟩, hf⟩ := h
  have hkey : key? r.qualifiedName = some n.key := by
    simp only [FunctionRecord.qualifiedName, hp, hf, hname]
    cases ht : n.type with
    | none => exact key?_of_no_type ht (.inl rfl) (by simp [Name.member, ht])
    | some t =>
        exact key?_of_type [] [] ht (.inl rfl) (.inl rfl) (.inl rfl) (by simp [Name.member, ht])
  exact key_of_key? hkey

/-- Every call-graph spelling of a name has its key. -/
theorem key?_of_spells {n : Name} {w : String} (h : n.Spells w) : key? w = some n.key := by
  cases h with
  | function ht ho => exact key?_of_no_type ht ho (by simp)
  | method hs ht ho =>
      rcases hs with rfl | rfl
      · exact key?_of_type ['('] [')'] ht (.inr (.inl rfl)) (.inr rfl) ho (by simp)
      · exact key?_of_type ['(', '*'] [')'] ht (.inr (.inr rfl)) (.inr rfl) ho (by simp)

/-- **The spellings of a function meet in one key.**  The header that declares a name and every
spelling of the name in a call graph have the same key: path, package, type and function, those
that are there, joined by colons. -/
theorem spellings_meet {n : Name} {r : FunctionRecord} {w : String} (hr : n.Declares r)
    (hw : n.Spells w) : key? w = some r.key ∧ r.key = n.key :=
  ⟨(key?_of_spells hw).trans (congrArg some (key_of_declares hr).symm), key_of_declares hr⟩

/-- A method behind a path with dots and parentheses. -/
def serverHandle : Name where
  path := some "github.com/org(v2)"
  package := "app"
  type := some "Server"
  function := "Handle"
  path_isPath := by decide
  package_isSegment := by decide
  type_isSegment := by decide
  function_isSegment := by decide

theorem spellings_meet_at_method :
    let r : FunctionRecord :=
      { model := "m", function := "Server.Handle", package := some ⟨"github.com/org(v2)/app", none, ""⟩ }
    serverHandle.Declares r ∧ serverHandle.Spells "(*github.com/org(v2)/app.Server).Handle#12" ∧
      key? "(*github.com/org(v2)/app.Server).Handle#12" = some r.key ∧
      r.key = "github.com/org(v2):app:Server:Handle" := by
  intro r
  have hr : serverHandle.Declares r := ⟨⟨_, rfl, by decide⟩, by decide⟩
  have hw : serverHandle.Spells "(*github.com/org(v2)/app.Server).Handle#12" := by
    have h := @Name.Spells.method serverHandle "*" "Server" "#12" (.inr rfl) rfl
      (.inr ⟨"12", by decide, by decide, List.all_eq_true.mp (by decide)⟩)
    have e : "(" ++ "*" ++ serverHandle.packagePath ++ "." ++ "Server" ++ ")." ++
        serverHandle.function ++ "#12" = "(*github.com/org(v2)/app.Server).Handle#12" := by decide
    exact e ▸ h
  obtain ⟨h, h'⟩ := spellings_meet hr hw
  exact ⟨hr, hw, h, h'.trans (by decide)⟩

end ThreatModel.FunctionName
