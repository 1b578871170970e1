import ThreatModel.Proofs.FunctionName.Spelling

/-!
# Function names — which names have their dots as colons for a key

The key of a name joins the parts that `written` finds in it; `colons` only turns the name's dots.
The two agree exactly on the plain names (`key_eq_colons_iff`), those that their dots cut into at
most three pieces, none empty and none with a slash in front of the last dot.

* A plain name is read as `type.function` or `package.type.function`, and without a dot not at all
  (`key_eq_colons_of_isPlain`).
* Conversely, a path puts a colon where the name has a slash, a part with a dot in it keeps the dot,
  and a missing type swallows one (`isPlain_of_key_eq_colons`).
-/

namespace ThreatModel.FunctionName

open Pattern

/-- A text of one line without parentheses, stars and ordinals. -/
def IsBare (s : List Char) : Prop := ∀ c ∈ s, c ∉ ['(', ')', '*', '#', '\n']

/-- The pieces that its dots cut a name into. -/
def pieces (w : String) : List (List Char) := w.toList.splitOn '.'

/-- The dots of a name cut it into at most three pieces; those in front of the last one are not
empty and hold no slash. -/
def IsPlain (w : String) : Prop :=
  (pieces w).length ≤ 3 ∧ ∀ piece ∈ (pieces w).dropLast, piece ≠ [] ∧ '/' ∉ piece

instance : DecidablePred IsPlain := fun _ => inferInstanceAs (Decidable (_ ∧ _))

theorem IsBare.not_mem {s : List Char} (h : IsBare s) {c : Char}
    (hc : c ∈ ['(', ')', '*', '#', '\n']) : c ∉ s :=
  fun hm => h c hm hc

theorem IsBare.mono {s r : List Char} (h : IsBare s) (hr : ∀ c ∈ r, c ∈ s) : IsBare r :=
  fun c hc => h c (hr c hc)

theorem IsBare.head?_ne {s : List Char} (h : IsBare s) {c : Char}
    (hc : c ∈ ['(', ')', '*', '#', '\n']) : s.head? ≠ some c :=
  fun e => h.not_mem hc (List.mem_of_mem_head? e)

theorem not_mem_of_mem_splitOn {c : Char} {s piece : List Char} (h : piece ∈ s.splitOn c) :
    c ∉ piece := by
  induction s generalizing piece with
  | nil =>
      rw [List.splitOn_nil, List.mem_singleton] at h
      simp [h]
  | cons d s ih =>
      rw [List.splitOn_cons_eq_if_modifyHead] at h
      split at h
      · rcases List.mem_cons.mp h with rfl | h
        · exact List.not_mem_nil
        · exact ih h
      · rename_i hd
        obtain ⟨q, qs, hq⟩ := List.exists_cons_of_ne_nil (List.splitOn_ne_nil c s)
        rw [hq, List.modifyHead_cons, List.mem_cons] at h
        rcases h with rfl | h
        · rw [List.mem_cons, not_or]
          exact ⟨fun e => hd (beq_iff_eq.mpr e.symm), ih (hq ▸ List.mem_cons_self)⟩
        · exact ih (hq ▸ List.mem_cons_of_mem q h)

theorem dot_not_mem_of_mem_pieces {w : String} {piece : List Char} (h : piece ∈ pieces w) :
    '.' ∉ piece :=
  not_mem_of_mem_splitOn h

theorem intercalate_pieces (w : String) : ['.'].intercalate (pieces w) = w.toList :=
  List.intercalate_splitOn '.'

theorem mem_of_mem_intercalate {sep c : Char} {ps : List (List Char)}
    (h : c ∈ [sep].intercalate ps) : c = sep ∨ ∃ p ∈ ps, c ∈ p := by
  induction ps with
  | nil => cases h
  | cons p ps ih =>
      cases ps with
      | nil =>
          rw [List.intercalate_singleton] at h
          exact .inr ⟨p, List.mem_cons_self, h⟩
      | cons q ps =>
          rw [List.intercalate_cons_cons, List.mem_append, List.mem_append,
            List.mem_singleton] at h
          rcases h with (h | h) | h
          · exact .inr ⟨p, List.mem_cons_self, h⟩
          · exact .inl h
          · exact (ih h).imp_right fun ⟨p', hp', hc⟩ => ⟨p', List.mem_cons_of_mem p hp', hc⟩

/-! ### Dots as colons -/

/-- A dot as a colon. -/
def colon (c : Char) : Char := if c = '.' then ':' else c

theorem toList_colons (w : String) : (colons w).toList = w.toList.map colon :=
  String.toList_ofList

theorem map_colon_eq_self_iff {s : List Char} : s.map colon = s ↔ '.' ∉ s := by
  constructor
  · intro h hm
    rw [← h, List.mem_map] at hm
    obtain ⟨c, -, hc⟩ := hm
    rw [colon] at hc
    split at hc
    · cases hc
    · contradiction
  · intro h
    refine (List.map_congr_left fun c hc => ?_).trans (List.map_id s)
    exact if_neg (ne_of_mem_of_not_mem hc h)

/-- Between pieces without dots, dots turn into colons. -/
theorem map_colon_intercalate {ps : List (List Char)} (h : ∀ p ∈ ps, '.' ∉ p) :
    (['.'].intercalate ps).map colon = [':'].intercalate ps := by
  induction ps with
  | nil => rfl
  | cons p ps ih =>
      have hp := map_colon_eq_self_iff.mpr (h p List.mem_cons_self)
      cases ps with
      | nil => rw [List.intercalate_singleton, List.intercalate_singleton, hp]
      | cons q ps =>
          rw [List.intercalate_cons_cons, List.intercalate_cons_cons, List.map_append,
            List.map_append, hp, ih fun q hq => h q (List.mem_cons_of_mem p hq)]
          rfl

theorem toList_colons_eq_intercalate (w : String) :
    (colons w).toList = [':'].intercalate (pieces w) := by
  rw [toList_colons, ← intercalate_pieces, map_colon_intercalate fun _ => dot_not_mem_of_mem_pieces]

/-- Parts that are there, as texts, are joined by colons. -/
theorem toList_joinParts {parts : List (Option String)} (texts : List (List Char))
    (h : parts.map (·.getD "") = texts.map String.ofList) :
    (joinParts parts).toList = [':'].intercalate (texts.filter (· ≠ [])) := by
  have hid : String.toList ∘ String.ofList = id := funext fun _ => String.toList_ofList
  rw [joinParts, h, String.toList_intercalate, List.filter_map, List.map_map, hid, List.map_id]
  refine congrArg ([':'].intercalate ·) (List.filter_congr fun t _ => ?_)
  simp

/-! ### Where the search fails -/

section
variable {α : Type} {k : List Char → Kept Part → Option α} {x : α} {kept : Kept Part}

/-- Behind the path a dot is needed. -/
theorem run_afterPath_of_not_mem {s : List Char} (h : '.' ∉ s) : afterPath.run k s kept = none := by
  refine (run_optional_of_none (run_eq_none fun r hr kept' => ?_)).trans
    (run_afterPackage_of_not_mem h)
  exact run_afterPackage_of_not_mem fun hm => h (hr.suffix.subset hm)

/-- A slash ends a path only if a dot stands behind it. -/
theorem run_afterOpening_of_undotted {s : List Char} (hs : ∀ u v, s = u ++ '/' :: v → '.' ∉ v)
    (h : afterPath.run k s kept = some x) : afterOpening.run k s kept = some x := by
  refine (run_optional_of_none (run_eq_none fun r hr kept' => ?_)).trans h
  obtain ⟨m, hm, rfl⟩ := hr
  obtain ⟨u, rfl⟩ := hm.suffix
  exact run_afterPath_of_not_mem (hs u r rfl)

end

/-! ### Plain names -/

/-- No dot stands behind a slash if all dots are in front of the slashes. -/
theorem undotted_of_append {front last : List Char} (hfront : '/' ∉ front) (hlast : '.' ∉ last)
    (u v : List Char) (h : front ++ last = u ++ '/' :: v) : '.' ∉ v := by
  rcases List.append_eq_append_iff.mp h with ⟨b, -, rfl⟩ | ⟨b, rfl, hb⟩
  · exact fun hm => hlast (by simp [hm])
  · cases b with
    | nil => exact fun hm => hlast ((List.nil_append last ▸ hb) ▸ List.mem_cons_of_mem _ hm)
    | cons d b =>
        obtain ⟨rfl, -⟩ := List.cons.inj hb
        exact absurd (by simp) hfront

theorem run_function_of_isBare {b : List Char} (hne : b ≠ []) (hb : IsBare b) (kept : Kept Part) :
    (chain [.field .function, afterFunction]).run (fun _ kept => some kept) b kept =
      some ((.function, ⟨b ++ [], []⟩) :: kept) := by
  have h : (chain [.field .function, afterFunction]).run (fun _ kept => some kept)
      (b ++ "".toList) kept = some ((.function, ⟨b ++ "".toList, "".toList⟩) :: kept) :=
    run_function_of_not_mem hne (hb.not_mem (by simp)) (hb.not_mem (by simp)) (.inl rfl) rfl
  simpa using h

/-- A bare name whose dots stand in front of its slashes has no path. -/
theorem key?_of_run_afterPath {w : String} {s : List Char} {m : Match Part} (hw : w.toList = s)
    (hbare : IsBare s) (hslash : ∀ u v, s = u ++ '/' :: v → '.' ∉ v)
    (h : afterPath.run (fun _ kept => some kept) s [] = some m) : key? w = some (joined m) := by
  have hrun := run_written (.inl rfl) (hbare.head?_ne (by simp)) (hbare.head?_ne (by simp))
    (run_afterOpening_of_undotted hslash h)
  rw [key?, match?, hw, ← List.nil_append s, hrun, Option.map_some]
  rfl

/-- What a package or a type may be. -/
theorem IsBare.field_chars {a : List Char} (h : IsBare a) (hdot : '.' ∉ a) :
    ∀ d ∈ a, d ≠ '.' ∧ d ≠ ')' ∧ d ≠ '\n' :=
  fun _ hd => ⟨ne_of_mem_of_not_mem hd hdot, ne_of_mem_of_not_mem hd (h.not_mem (by simp)),
    ne_of_mem_of_not_mem hd (h.not_mem (by simp))⟩

/-- A package with its dot, if there is one. -/
def packageDot (package : List Char) : List Char := if package = [] then [] else package ++ ['.']

theorem packageDot_nil : packageDot [] = [] := rfl

theorem packageDot_of_ne_nil {package : List Char} (h : package ≠ []) :
    packageDot package = package ++ ['.'] :=
  if_neg h

/-- The search in `package.type.function` and in `type.function`. -/
theorem exists_run_afterPath {package type function : List Char}
    (hbare : IsBare (packageDot package ++ (type ++ '.' :: function)))
    (hdots : '.' ∉ package ∧ '.' ∉ type ∧ '.' ∉ function) (ht : type ≠ []) (hf : function ≠ []) :
    ∃ m : Match Part, afterPath.run (fun _ kept => some kept)
        (packageDot package ++ (type ++ '.' :: function)) [] = some m ∧
      [m.get? .path, m.get? .package, m.get? .type, m.get? .function].map (·.getD "") =
        [[], package, type, function].map String.ofList := by
  obtain ⟨hpackage, htype, hfunction⟩ := hdots
  have htypeBare : IsBare type := hbare.mono fun c hc => by simp [hc]
  have hfunctionBare : IsBare function := hbare.mono fun c hc => by simp [hc]
  have hrest : ∀ kept, afterPackage.run (fun _ kept => some kept) (type ++ '.' :: function) kept =
      some ((.function, ⟨function ++ [], []⟩) ::
        (.type, ⟨type ++ '.' :: function, '.' :: function⟩) :: kept) := fun kept =>
    run_afterPackage [] ht (htypeBare.field_chars htype) (.inl rfl)
      (run_function_of_isBare hf hfunctionBare _)
  by_cases hp : package = []
  · rw [hp, packageDot_nil, List.nil_append]
    refine ⟨_, run_afterPath_of_undotted htype hfunction (hrest []), ?_⟩
    simp only [List.map_cons, Match.get?_cons_of_ne, Match.get?_cons_self, ne_eq, reduceCtorEq,
      not_false_eq_true]
    rfl
  · rw [packageDot_of_ne_nil hp] at hbare ⊢
    have hchars := IsBare.field_chars (a := package) (hbare.mono fun c hc => by simp [hc]) hpackage
    have hrun := run_afterPath_package hp (fun d hd => ⟨(hchars d hd).1, (hchars d hd).2.2⟩)
      (hrest [(.package, ⟨package ++ '.' :: (type ++ '.' :: function),
        '.' :: (type ++ '.' :: function)⟩)])
    rw [List.append_assoc, List.singleton_append]
    refine ⟨_, hrun, ?_⟩
    simp only [List.map_cons, Match.get?_cons_of_ne, Match.get?_cons_self, ne_eq, reduceCtorEq,
      not_false_eq_true]
    rfl

/-- `type.function`, with a package in front or without. -/
theorem key?_of_pieces {w : String} (package : List Char) {type function : List Char}
    (hw : pieces w = [package, type, function].filter (· ≠ [])) (hbare : IsBare w.toList)
    (ht : type ≠ []) (hf : function ≠ []) (hslash : '/' ∉ package ∧ '/' ∉ type) :
    key? w = some (colons w) := by
  have htext : w.toList = packageDot package ++ (type ++ '.' :: function) := by
    rw [← intercalate_pieces, hw]
    by_cases hp : package = [] <;> simp [packageDot, hp, ht, hf, List.intercalate_cons_cons]
  have hdots : '.' ∉ package ∧ '.' ∉ type ∧ '.' ∉ function := by
    have hdot : ∀ p ∈ [package, type, function], '.' ∉ p := by
      intro p hp
      by_cases hne : p = []
      · simp [hne]
      · refine dot_not_mem_of_mem_pieces (w := w) ?_
        rw [hw, List.mem_filter]
        exact ⟨hp, by simpa using hne⟩
    simpa using hdot
  have hundotted : ∀ u v, packageDot package ++ (type ++ '.' :: function) = u ++ '/' :: v →
      '.' ∉ v := by
    have hfront : packageDot package ++ (type ++ '.' :: function) =
        (packageDot package ++ type ++ ['.']) ++ function := by simp
    rw [hfront]
    refine undotted_of_append ?_ hdots.2.2
    by_cases hp : package = [] <;> simp [packageDot, hp, hslash]
  obtain ⟨m, hrun, hparts⟩ := exists_run_afterPath (htext ▸ hbare) hdots ht hf
  rw [key?_of_run_afterPath htext (htext ▸ hbare) hundotted hrun]
  refine congrArg some (String.toList_inj.mp ?_)
  rw [toList_colons_eq_intercalate, hw, joined, toList_joinParts _ hparts,
    List.filter_cons_of_neg (by simp)]

/-- A name without a dot has no parts. -/
theorem key?_eq_none_of_not_mem {w : String} (h : '.' ∉ w.toList) : key? w = none := by
  refine Option.eq_none_iff_forall_ne_some.mpr fun K hK => h ?_
  obtain ⟨⟨x, y, hw, -⟩, -⟩ := of_key? hK
  simp [hw]

/-- **The key of a plain name is the name with its dots as colons.** -/
theorem key_eq_colons_of_isPlain {w : String} (hbare : IsBare w.toList)
    (hlast : w.toList.getLast? ≠ some '.') (h : IsPlain w) : key w = colons w := by
  have hkey : key? w = none ∨ key? w = some (colons w) := by
    obtain ⟨hlen, hfront⟩ := h
    have hjoin := intercalate_pieces w
    match hw : pieces w with
    | [] => exact absurd hw (List.splitOn_ne_nil '.' w.toList)
    | [a] =>
        have ha : '.' ∉ a := dot_not_mem_of_mem_pieces (w := w) (by simp [hw])
        rw [hw, List.intercalate_singleton] at hjoin
        exact .inl (key?_eq_none_of_not_mem (hjoin ▸ ha))
    | [a, b] =>
        obtain ⟨ha, hslash⟩ := hfront a (by simp [hw])
        have hb : b ≠ [] := by
          rintro rfl
          exact hlast (by simp [← hjoin, hw, List.intercalate_cons_cons])
        refine .inr (key?_of_pieces [] ?_ hbare ha hb ⟨List.not_mem_nil, hslash⟩)
        simp [hw, ha, hb]
    | [a, b, c] =>
        obtain ⟨ha, hsa⟩ := hfront a (by simp [hw])
        obtain ⟨hb, hsb⟩ := hfront b (by simp [hw])
        have hc : c ≠ [] := by
          rintro rfl
          exact hlast (by simp [← hjoin, hw, List.intercalate_cons_cons, List.getLast?_cons])
        refine .inr (key?_of_pieces a ?_ hbare hb hc ⟨hsa, hsb⟩)
        simp [hw, ha, hb, hc]
    | a :: b :: c :: d :: ps =>
        rw [hw] at hlen
        simp only [List.length_cons] at hlen
        omega
  rcases hkey with hkey | hkey
  · rw [key, hkey]
  · exact key_of_key? hkey

/-! ### The parts that the search finds -/

/-- The path with its slash. -/
def pathPart : Pattern Part := .chain [.capture .path (.several true notNewline), "/"]

/-- What is found in a bare name is found behind a path, if something is, and else without one. -/
theorem run_written_of_isBare {s : List Char} (hs : IsBare s) :
    written.run (fun _ kept => some kept) s [] =
      (pathPart.run (afterPath.run fun _ kept => some kept) s []).or
        (afterPath.run (fun _ kept => some kept) s []) := by
  have hpar : s.head? ≠ some '(' := hs.head?_ne (by simp)
  have hstar : s.head? ≠ some '*' := hs.head?_ne (by simp)
  exact (run_optional_of_none (run_lit_of_head?_ne rfl hpar)).trans
    ((run_optional_of_none (run_lit_of_head?_ne rfl hstar)).trans rfl)

/-- A dot with something behind it is enough for the parts behind a path. -/
theorem reads_afterPath {x y : List Char} (hx : '\n' ∉ x) (hy : '\n' ∉ y) (hne : y ≠ []) :
    afterPath.Reads (x ++ '.' :: y) [] := by
  have htype : (Pattern.optional (.field Part.type)).Reads (x ++ '.' :: y) ('.' :: y) := by
    by_cases h : x = []
    · exact .inr (by rw [h]; rfl)
    · exact .inl (reads_field h hx)
  have hfunction : (Pattern.field Part.function).Reads y [] := by
    have h : (Pattern.field Part.function).Reads (y ++ []) [] := reads_field hne hy
    rwa [List.append_nil] at h
  exact ⟨_, .inr rfl, _, htype, _, .inr rfl, y, rfl, [], hfunction, [], .inr rfl, rfl, .inl rfl⟩

/-- Of the fields, `part` alone is kept anew, as `u`. -/
structure Keeps (part : Part) (u : List Char) (kept kept' : Kept Part) : Prop where
  field : (Match.get? kept' part).getD "" = String.ofList u
  others : ∀ other, other ≠ part → Match.get? kept' other = Match.get? kept other

section
variable {part : Part} {s r : List Char} {kept kept' : Kept Part}

theorem Keeps.cons (part : Part) (u r : List Char) (kept : Kept Part) :
    Keeps part u kept ((part, ⟨u ++ r, r⟩) :: kept) :=
  ⟨by rw [Match.get?_cons_self]; rfl, fun _ h => Match.get?_cons_of_ne _ _ h.symm⟩

/-- A part that is not there is kept as the empty text. -/
theorem Keeps.missing (h : Match.get? kept part = none) : Keeps part [] kept kept :=
  ⟨by rw [h]; rfl, fun _ _ => rfl⟩

theorem exists_of_mem_readings_package (hkept : Match.get? kept .package = none)
    (h : (r, kept') ∈ (Pattern.optional (.chain [.field .package, "."])).readings s kept) :
    ∃ package, s = packageDot package ++ r ∧ Keeps .package package kept kept' := by
  simp only [mem_readings_optional, mem_readings_chain_cons, chain_singleton, field,
    mem_readings_capture_several, mem_readings_lit] at h
  rcases h with ⟨_, _, ⟨u, hu, -, rfl, rfl⟩, rfl, rfl⟩ | ⟨rfl, rfl⟩
  · refine ⟨u, ?_, .cons ..⟩
    rw [packageDot_of_ne_nil hu, List.append_assoc]
    rfl
  · exact ⟨[], rfl, .missing hkept⟩

theorem exists_of_mem_readings_type (hkept : Match.get? kept .type = none)
    (h : (r, kept') ∈ (Pattern.optional (.field .type)).readings s kept) :
    ∃ type, s = type ++ r ∧ Keeps .type type kept kept' := by
  simp only [mem_readings_optional, field, mem_readings_capture_several] at h
  rcases h with ⟨u, -, -, rfl, rfl⟩ | ⟨rfl, rfl⟩
  · exact ⟨u, rfl, .cons ..⟩
  · exact ⟨[], rfl, .missing hkept⟩

/-- The parts behind the path, as the search finds them. -/
theorem of_run_afterPath {path : List Char} {m : Match Part} (hs : IsBare s)
    (hkept : Keeps .path path [] kept)
    (h : afterPath.run (fun _ kept => some kept) s kept = some m) :
    ∃ package type function : List Char, function ≠ [] ∧
      s = packageDot package ++ (type ++ '.' :: function) ∧
      (joined m).toList =
        [':'].intercalate ([path, package, type, function].filter (· ≠ [])) := by
  obtain ⟨r, m', hm, hk⟩ := exists_mem_of_run h
  cases hk
  rw [afterPath, mem_readings_chain_cons] at hm
  obtain ⟨s₁, kept₁, hopt, hm⟩ := hm
  obtain ⟨package, rfl, hpackage⟩ := exists_of_mem_readings_package (hkept.others _ (by simp)) hopt
  rw [chain_singleton, afterPackage, mem_readings_chain_cons] at hm
  obtain ⟨s₂, kept₂, hopt, hm⟩ := hm
  have htypeless : Match.get? kept₁ .type = none := by
    rw [hpackage.others _ (by simp), hkept.others _ (by simp)]
    rfl
  obtain ⟨type, rfl, htype⟩ := exists_of_mem_readings_type htypeless hopt
  simp only [afterFunction, mem_readings_chain_cons, mem_readings_optional, chain_singleton, field,
    mem_readings_capture_several, mem_readings_lit, mem_readings_finish] at hm
  obtain ⟨s₃, kept₃, hpar, s₄, kept₄, ⟨rfl, rfl⟩, s₅, kept₅, ⟨function, hne, -, rfl, rfl⟩,
    s₆, kept₆, hsuffix, hfinish, rfl, rfl⟩ := hm
  have hs : IsBare s₂ := hs.mono fun c hc => by simp [hc]
  rcases hpar with ⟨rfl, rfl⟩ | ⟨rfl, rfl⟩
  · exact absurd (by simp) (hs.not_mem (c := ')') (by simp))
  rcases hsuffix with hsuffix | ⟨rfl, rfl⟩
  · obtain ⟨_, rfl, -⟩ := (reads_iff_mem_readings _ _ _ _).mpr ⟨_, hsuffix⟩
    exact absurd (by simp) (hs.not_mem (c := '#') (by simp))
  rcases hfinish with rfl | rfl
  · refine ⟨package, type, function, hne, by simp, toList_joinParts _ ?_⟩
    simp only [List.map_cons, Match.get?_cons_self, Match.get?_cons_of_ne, ne_eq, reduceCtorEq,
      not_false_eq_true, htype.others, hpackage.others, hkept.field, hpackage.field, htype.field]
    rfl
  · exact absurd (by simp) (hs.not_mem (c := '\n') (by simp))

end

theorem pieces_eq {w : String} {ps : List (List Char)} (hw : w.toList = ['.'].intercalate ps)
    (hne : ps ≠ []) (h : ∀ p ∈ ps, '.' ∉ p) : pieces w = ps := by
  rw [pieces, hw, List.splitOn_intercalate '.' h hne]

/-- The key joins what the search finds. -/
theorem toList_key {w : String} {m : Match Part} {parts : List (List Char)}
    (hm : written.run (fun _ kept => some kept) w.toList [] = some m)
    (hparts : (joined m).toList = [':'].intercalate parts) :
    (key w).toList = [':'].intercalate parts := by
  rw [← hparts]
  exact congrArg String.toList (key_of_key? (congrArg (Option.map joined) hm))

/-- With a path, a colon stands where the name has a slash. -/
theorem intercalate_ne_map_colon {path r : List Char} {ps : List (List Char)} (hne : ps ≠ []) :
    [':'].intercalate (path :: ps) ≠ (path ++ '/' :: r).map colon := by
  intro h
  rw [List.intercalate_cons_of_ne_nil hne, List.map_append, List.append_assoc] at h
  obtain ⟨-, h⟩ := List.append_inj h (by simp)
  cases (List.cons.inj h).1

/-- Without a path, the parts have no dots if they join to the name with its dots as colons. -/
theorem not_mem_of_intercalate_eq {package type function : List Char}
    (hne : function ≠ [])
    (h : [':'].intercalate ([package, type, function].filter (· ≠ [])) =
      (packageDot package ++ (type ++ '.' :: function)).map colon) :
    type ≠ [] ∧ '.' ∉ package ∧ '.' ∉ type ∧ '.' ∉ function := by
  have htype : type ≠ [] := by
    -- a missing type leaves a dot that no colon stands for
    rintro rfl
    have hlen := congrArg List.length h
    by_cases hp : package = [] <;>
      simp [packageDot, hp, hne, List.intercalate_cons_cons] at hlen
  have hcut : ∀ {a b b' : List Char}, a ++ ':' :: b = a.map colon ++ ':' :: b' →
      '.' ∉ a ∧ b = b' := by
    intro a b b' hab
    obtain ⟨ha, hb⟩ := List.append_inj hab (by simp)
    exact ⟨map_colon_eq_self_iff.mp ha.symm, (List.cons.inj hb).2⟩
  have hcolon : colon '.' = ':' := rfl
  refine ⟨htype, ?_⟩
  by_cases hp : package = []
  · have h : type ++ ':' :: function = type.map colon ++ ':' :: function.map colon := by
      simpa [hp, packageDot_nil, htype, hne, List.intercalate_cons_cons, hcolon] using h
    obtain ⟨ht, hf⟩ := hcut h
    exact ⟨by simp [hp], ht, map_colon_eq_self_iff.mp hf.symm⟩
  · have h : package ++ ':' :: (type ++ ':' :: function) =
        package.map colon ++ ':' :: (type.map colon ++ ':' :: function.map colon) := by
      simpa [hp, packageDot_of_ne_nil hp, htype, hne, List.intercalate_cons_cons, hcolon] using h
    obtain ⟨hpackage, h⟩ := hcut h
    obtain ⟨ht, hf⟩ := hcut h
    exact ⟨hpackage, ht, map_colon_eq_self_iff.mp hf.symm⟩

section
variable {w : String} {u v : List Char}

/-- A dot with something behind it is found. -/
theorem reads_afterPath_of_mem (hbare : IsBare w.toList) (hlast : w.toList.getLast? ≠ some '.')
    (hw : w.toList = u ++ v) (hv : '.' ∈ v) : afterPath.Reads v [] := by
  obtain ⟨x, y, rfl⟩ := List.append_of_mem hv
  have hline : ∀ t : List Char, (∀ c ∈ t, c ∈ w.toList) → '\n' ∉ t :=
    fun t ht => (hbare.mono ht).not_mem (by simp)
  refine reads_afterPath (hline x fun c hc => ?_) (hline y fun c hc => ?_) ?_
  · simp [hw, hc]
  · simp [hw, hc]
  · rintro rfl
    exact hlast (by simp [hw])

/-- Without a path, no slash stands in front of a dot. -/
theorem slash_not_mem_of_no_path (hbare : IsBare w.toList) (hhead : w.toList.head? ≠ some '/')
    (hlast : w.toList.getLast? ≠ some '.')
    (hpath : pathPart.run (afterPath.run fun _ kept => some kept) w.toList [] = none)
    (hw : w.toList = u ++ v) (hv : '.' ∈ v) : '/' ∉ u := by
  intro hu
  obtain ⟨a, b, rfl⟩ := List.append_of_mem hu
  have ha : a ≠ [] := by
    rintro rfl
    exact hhead (by simp [hw])
  have hnewline := notNewline_of_not_mem (u := a) fun hm =>
    hbare.not_mem (c := '\n') (by simp) (by simp [hw, hm])
  have hafter : afterPath.Reads (b ++ v) [] :=
    reads_afterPath_of_mem hbare hlast (u := a ++ ['/']) (by simp [hw]) (by simp [hv])
  have hreads : (pathPart.seq afterPath).Reads w.toList [] :=
    ⟨b ++ v, ⟨'/' :: (b ++ v), reads_several.mpr ⟨a, ha, hnewline, by simp [hw]⟩, rfl⟩, hafter⟩
  simpa [run, hpath] using isSome_run_of_reads hreads []

/-- With a path, the key is not the name with its dots as colons. -/
theorem key_ne_colons_of_path {m : Match Part} (hbare : IsBare w.toList)
    (hpath : pathPart.run (afterPath.run fun _ kept => some kept) w.toList [] = some m) :
    key w ≠ colons w := by
  intro h
  obtain ⟨r, kept, hmem, hrun⟩ := exists_mem_of_run hpath
  simp only [pathPart, mem_readings_chain_cons, chain_singleton, mem_readings_capture_several,
    mem_readings_lit] at hmem
  obtain ⟨_, _, ⟨path, hne, -, hw, rfl⟩, rfl, rfl⟩ := hmem
  have hw : w.toList = path ++ '/' :: r := hw
  obtain ⟨package, type, function, hf, -, hparts⟩ := of_run_afterPath
    (hbare.mono fun c hc => by simp [hw, hc]) (.cons ..) hrun
  have hwritten := run_written_of_isBare hbare
  rw [hpath, Option.some_or] at hwritten
  have hkey := toList_key hwritten hparts
  rw [h, toList_colons, hw, List.filter_cons_of_pos (by simpa using hne)] at hkey
  exact intercalate_ne_map_colon (List.ne_nil_of_mem (a := function) (by simp [hf])) hkey.symm

/-- **A name that has its dots as colons for a key is plain.** -/
theorem isPlain_of_key_eq_colons (hbare : IsBare w.toList) (hhead : w.toList.head? ≠ some '/')
    (hlast : w.toList.getLast? ≠ some '.') (h : key w = colons w) : IsPlain w := by
  by_cases hdot : '.' ∉ w.toList
  · have hpieces : pieces w = [w.toList] := List.splitOn_eq_singleton hdot
    simp [IsPlain, hpieces]
  have hdot := Decidable.not_not.mp hdot
  cases hpath : pathPart.run (afterPath.run fun _ kept => some kept) w.toList [] with
  | some m => exact absurd h (key_ne_colons_of_path hbare hpath)
  | none =>
      obtain ⟨m, hm⟩ := Option.isSome_iff_exists.mp
        (isSome_run_of_reads (reads_afterPath_of_mem hbare hlast (u := []) rfl hdot) [])
      obtain ⟨package, type, function, hf, hw, hparts⟩ :=
        of_run_afterPath hbare (.missing rfl) hm
      have hwritten := run_written_of_isBare hbare
      rw [hpath, Option.none_or] at hwritten
      have hkey := toList_key (hwritten.trans hm) hparts
      rw [h, toList_colons, hw, List.filter_cons_of_neg (by simp)] at hkey
      obtain ⟨ht, hdots⟩ := not_mem_of_intercalate_eq hf hkey.symm
      have hslash : '/' ∉ packageDot package ++ type :=
        slash_not_mem_of_no_path hbare hhead hlast hpath
          (by rw [hw, List.append_assoc]) List.mem_cons_self
      -- what is found are the pieces, two or three of them
      by_cases hp : package = []
      · rw [hp, packageDot_nil, List.nil_append] at hw hslash
        have hpieces : pieces w = [type, function] := pieces_eq
          (by simp [hw, List.intercalate_cons_cons]) (by simp) (by simp [hdots])
        simpa [IsPlain, hpieces, ht] using hslash
      · rw [packageDot_of_ne_nil hp] at hw hslash
        have hpieces : pieces w = [package, type, function] := pieces_eq
          (by simp [hw, List.intercalate_cons_cons]) (by simp) (by simp [hdots])
        have hslashes : '/' ∉ package ∧ '/' ∉ type := by simpa using hslash
        simp [IsPlain, hpieces, hp, ht, hslashes]

end

/-- **The key of a name is the name with its dots as colons exactly when the name is plain.** -/
theorem key_eq_colons_iff {w : String} (hbare : IsBare w.toList)
    (hhead : w.toList.head? ≠ some '/') (hlast : w.toList.getLast? ≠ some '.') :
    key w = colons w ↔ IsPlain w :=
  ⟨isPlain_of_key_eq_colons hbare hhead hlast, key_eq_colons_of_isPlain hbare hlast⟩

end ThreatModel.FunctionName
