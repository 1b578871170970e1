import Mathlib.Data.List.Basic
import Mathlib.Data.List.Induction
import ThreatModel.Annotations.Form
import ThreatModel.Proofs.Pattern.Search

/-!
# Fields — a text is cut at its separators from left to right

The fields of an annotation stand behind one another, each up to a separator and the last up to the
end of the line.  A search may put the end of each field at any place where a separator stands, and
come back to it.  `splitAt?` never comes back: it cuts at the first separator behind the first
character, and what is left is cut likewise.

* `Splits`: a splitter finds what the search for a pattern finds first.
* `Splits.cut`: the first cut is enough, since a text that can be split can be split with more in
  front of it (`Splits.persists`).
* `Tail.splits`: the three ways in which an annotation may end.  A last field gives up the blanks
  behind it (`trimField`), and a reference opens with the first parenthesis that it can open with
  (`enclosed?`).
* `splits_cutPattern`: fields with separators behind them, and an end.
-/

namespace ThreatModel

namespace Text

variable {s b : List Char}

theorem trimRight_concat (s : List Char) (c : Char) :
    trimRight (s ++ [c]) = if isBlank c then trimRight s else s ++ [c] := by
  induction s with
  | nil => rfl
  | cons d s ih =>
      rw [List.cons_append, trimRight, ih, trimRight]
      by_cases hc : isBlank c = true
      · simp [hc]
      · cases s <;> simp [hc]

theorem trimRight_append (hb : ∀ d ∈ b, isBlank d = true) : trimRight (s ++ b) = trimRight s := by
  induction b using List.reverseRecOn with
  | nil => rw [List.append_nil]
  | append_singleton b d ih =>
      rw [← List.append_assoc, trimRight_concat, if_pos (hb d (by simp))]
      exact ih fun c hc => hb c (by simp [hc])

/-- What ends a trimmed text is not blank. -/
theorem exists_not_isBlank_of_trimRight {a b : List Char} (h : trimRight s = a ++ b) (hb : b ≠ []) :
    ∃ c ∈ b, isBlank c = false := by
  induction s using List.reverseRecOn with
  | nil =>
      have hnil : a ++ b = [] := h.symm
      exact absurd (List.append_eq_nil_iff.mp hnil).2 hb
  | append_singleton s d ih =>
      rw [trimRight_concat] at h
      by_cases hd : isBlank d = true
      · exact ih (by simpa [hd] using h)
      · rw [if_neg hd] at h
        have hlast := congrArg List.getLast? h
        rw [List.getLast?_concat, List.getLast?_append_of_ne_nil _ hb] at hlast
        exact ⟨d, List.mem_of_mem_getLast? hlast.symm, by simpa using hd⟩

end Text

namespace Annotations

open Pattern

/-! ### Cutting -/

/-- What stands in front of the first separator, and what behind it. -/
def seek (sep : List Char) : List Char → Option (List Char × List Char)
  | []     => (afterText? sep []).map ([], ·)
  | c :: s =>
    match afterText? sep (c :: s) with
    | some r => some ([], r)
    | none   => (seek sep s).map fun (u, r) => (c :: u, r)

/-- What stands in front of the first separator behind the first character, and what behind it. -/
def cut (sep : List Char) : List Char → Option (List Char × List Char)
  | []     => none
  | c :: s => (seek sep s).map fun (u, r) => (c :: u, r)

variable {sep s u r : List Char}

theorem seek_of_afterText? (h : afterText? sep s = some r) : seek sep s = some ([], r) := by
  cases s with
  | nil => rw [seek, h]; rfl
  | cons c s => rw [seek, h]

theorem exists_seek (sep u' r' : List Char) :
    ∃ u r, seek sep (u' ++ (sep ++ r')) = some (u, r) := by
  induction u' with
  | nil => exact ⟨_, _, seek_of_afterText? (afterText?_append sep r')⟩
  | cons c u' ih =>
      obtain ⟨u, r, h⟩ := ih
      rw [List.cons_append, seek]
      cases afterText? sep (c :: (u' ++ (sep ++ r'))) with
      | some r => exact ⟨_, _, rfl⟩
      | none => exact ⟨c :: u, r, by rw [h]; rfl⟩

theorem eq_of_seek (h : seek sep s = some (u, r)) : s = u ++ (sep ++ r) := by
  induction s generalizing u with
  | nil =>
      obtain ⟨r', hr', h⟩ := Option.map_eq_some_iff.mp h
      cases h
      simpa using afterText?_eq_some_iff.mp hr'
  | cons c s ih =>
      rw [seek] at h
      cases hsep : afterText? sep (c :: s) with
      | some r' =>
          rw [hsep] at h
          cases h
          simpa using afterText?_eq_some_iff.mp hsep
      | none =>
          rw [hsep] at h
          obtain ⟨⟨u', r'⟩, hrest, h⟩ := Option.map_eq_some_iff.mp h
          cases h
          rw [ih hrest, List.cons_append]

/-- No separator stands further left than the first one. -/
theorem suffix_of_seek (h : seek sep s = some (u, r)) {u' r' : List Char}
    (hs : s = u' ++ (sep ++ r')) : r' <:+ r := by
  induction s generalizing u u' with
  | nil => 
      obtain ⟨-, hs⟩ := List.append_eq_nil_iff.mp hs.symm
      obtain ⟨-, rfl⟩ := List.append_eq_nil_iff.mp hs
      exact List.nil_suffix
  | cons c s ih =>
      rw [seek] at h
      cases hsep : afterText? sep (c :: s) with
      | some r₀ =>
          rw [hsep] at h
          cases h
          -- both texts end the line, and the first one leaves more of it
          have hr := afterText?_eq_some_iff.mp hsep
          have hlen := congrArg List.length (hr.symm.trans hs)
          simp only [List.length_append] at hlen
          refine List.suffix_of_suffix_length_le ?_ ⟨sep, hr.symm⟩ (by omega)
          exact ⟨u' ++ sep, by rw [hs, List.append_assoc]⟩
      | none =>
          rw [hsep] at h
          obtain ⟨⟨u₁, r₁⟩, hrest, h⟩ := Option.map_eq_some_iff.mp h
          cases h
          cases u' with
          | nil =>
              rw [hs, List.nil_append, afterText?_append] at hsep
              cases hsep
          | cons d u' => exact ih hrest (List.cons.inj hs).2

/-- A text is cut at the first separator behind its first character. -/
structure FirstCut (sep s u r : List Char) : Prop where
  ne_nil : u ≠ []
  eq_append : s = u ++ (sep ++ r)
  suffix : ∀ {u' r'}, u' ≠ [] → s = u' ++ (sep ++ r') → r' <:+ r

theorem firstCut_of_cut (h : cut sep s = some (u, r)) : FirstCut sep s u r := by
  cases s with
  | nil => cases h
  | cons c s =>
      obtain ⟨⟨u, r⟩, hseek, h⟩ := Option.map_eq_some_iff.mp h
      cases h
      refine ⟨by simp, by rw [eq_of_seek hseek, List.cons_append], fun {u' r'} hu' hs => ?_⟩
      obtain ⟨d, u', rfl⟩ := List.exists_cons_of_ne_nil hu'
      exact suffix_of_seek hseek (List.cons.inj hs).2

theorem exists_cut {u' r' : List Char} (hu' : u' ≠ []) (hs : s = u' ++ (sep ++ r')) :
    ∃ u r, cut sep s = some (u, r) ∧ r' <:+ r := by
  obtain ⟨c, u', rfl⟩ := List.exists_cons_of_ne_nil hu'
  subst hs
  obtain ⟨u, r, hseek⟩ := exists_seek sep u' r'
  have hcut : cut sep (c :: u' ++ (sep ++ r')) = some (c :: u, r) := by
    rw [List.cons_append, cut, hseek]; rfl
  exact ⟨_, r, hcut, (firstCut_of_cut hcut).suffix hu' rfl⟩

/-- No separator stands inside the field in front of the first one. -/
theorem FirstCut.afterText?_eq_none (h : FirstCut sep s u r) {a b : List Char} (hab : u = a ++ b)
    (ha : a ≠ []) (hb : b ≠ []) : afterText? sep (b ++ (sep ++ r)) = none := by
  cases hr' : afterText? sep (b ++ (sep ++ r)) with
  | none => rfl
  | some r' =>
      have heq := afterText?_eq_some_iff.mp hr'
      have hle := (h.suffix ha (by rw [h.eq_append, hab, List.append_assoc, heq])).length_le
      have hlen := congrArg List.length heq
      have hpos := List.length_pos_of_ne_nil hb
      simp only [List.length_append] at hlen
      omega

theorem FirstCut.not_mem {c d : Char} (h : FirstCut [c] s (d :: u) r) : c ∉ u := by
  intro hc
  obtain ⟨a, b, rfl⟩ := List.append_of_mem hc
  have hnone := h.afterText?_eq_none (a := d :: a) (b := c :: b) rfl (by simp) (by simp)
  simp [afterText?] at hnone

/-! ### Splitters -/

/-- The fields of an annotation with their texts, in order. -/
abbrev Fields : Type := List (Part × String)

/-- A kept field with its text. -/
def textOf (x : Part × Span) : Part × String := (x.1, String.ofList x.2.chars)

/-- The kept fields with their texts, first one first. -/
def texts (kept : Kept Part) : Fields := kept.reverse.map textOf

theorem texts_cons (p : Part) (u v : List Char) (kept : Kept Part) :
    texts ((p, ⟨u ++ v, v⟩) :: kept) = texts kept ++ [(p, String.ofList u)] := by
  simp [texts, textOf, Span.chars_append]

/-- A splitter finds the fields that the search for a pattern finds first, and finds some if it
finds some at a later place. -/
structure Splits (T : Pattern Part) (split? : List Char → Option Fields) : Prop where
  reads : ∀ {s fs}, '\n' ∉ s → split? s = some fs → ∀ kept,
    ∃ kept', T.run keep s kept = some kept' ∧ texts kept' = texts kept ++ fs
  fails : ∀ {s}, '\n' ∉ s → split? s = none → ∀ kept, T.run keep s kept = none
  persists : ∀ {r s}, r <:+ s → (split? r).isSome → (split? s).isSome

/-- Splits at the first separator behind the first character. -/
def splitFirst (p : Part) (sep : String) (split? : List Char → Option Fields) (s : List Char) :
    Option Fields :=
  match cut sep.toList s with
  | none        => none
  | some (u, r) => (split? r).map ((p, String.ofList u) :: ·)

/-- **The first separator is enough.**  If no fields are found behind it, none are found behind a
later one. -/
theorem Splits.cut {T : Pattern Part} {split? : List Char → Option Fields} (h : Splits T split?)
    (p : Part) (sep : String) :
    Splits (.seq (.field p) (.seq (.lit sep) T)) (splitFirst p sep split?) where
  reads {s fs} hn hfs kept := by
    rw [splitFirst] at hfs
    cases hcut : Annotations.cut sep.toList s with
    | none =>
        rw [hcut] at hfs
        cases hfs
    | some x =>
        obtain ⟨u, r⟩ := x
        rw [hcut] at hfs
        obtain ⟨fs, hr, rfl⟩ := Option.map_eq_some_iff.mp hfs
        have hfirst := firstCut_of_cut hcut
        obtain rfl := hfirst.eq_append
        simp only [List.mem_append, not_or] at hn
        obtain ⟨kept', hrun, htexts⟩ := h.reads hn.2.2 hr ((p, ⟨u ++ (sep.toList ++ r),
          sep.toList ++ r⟩) :: kept)
        refine ⟨kept', run_field hfirst.ne_nil hn.1 (fun a b hab ha hb kept' => ?_)
          ((run_lit sep _ _ _).trans hrun), by simp [htexts, texts_cons]⟩
        simp [run, hfirst.afterText?_eq_none hab ha hb]
  fails {s} hn hnone kept := by
    change (Pattern.field p).run ((Pattern.seq (.lit sep) T).run keep) s kept = none
    refine run_eq_none fun m hm kept' => ?_
    obtain ⟨u', hu', -, rfl⟩ := reads_several.mp hm
    change (Pattern.lit sep).run (T.run keep) m kept' = none
    refine run_eq_none fun r' hr' kept'' => ?_
    obtain rfl : m = sep.toList ++ r' := hr'
    -- whatever separator the search stops at, it stands behind the first one
    obtain ⟨u, r, hcut, hsuffix⟩ := exists_cut hu' rfl
    rw [splitFirst, hcut, Option.map_eq_none_iff] at hnone
    simp only [List.mem_append, not_or] at hn
    refine h.fails hn.2.2 ?_ kept''
    by_contra hsome
    have hsome := h.persists hsuffix (Option.isSome_iff_ne_none.mpr hsome)
    rw [hnone] at hsome
    cases hsome
  persists {r s} hsuffix hsome := by
    obtain ⟨a, rfl⟩ := hsuffix
    rw [splitFirst] at hsome
    cases hcut : Annotations.cut sep.toList r with
    | none =>
        rw [hcut] at hsome
        cases hsome
    | some x =>
        obtain ⟨u, r'⟩ := x
        rw [hcut, Option.isSome_map] at hsome
        have hfirst := firstCut_of_cut hcut
        -- with more in front the separator may come earlier, which leaves more
        have hs : a ++ r = a ++ u ++ (sep.toList ++ r') := by
          rw [hfirst.eq_append, List.append_assoc]
        obtain ⟨u₁, r₁, hcut₁, hsuffix₁⟩ := exists_cut (by simp [hfirst.ne_nil]) hs
        rw [splitFirst, hcut₁, Option.isSome_map]
        exact h.persists hsuffix₁ hsome

/-! ### The end of an annotation -/

/-- A field to the end of the line, without the blanks there, but with its first character. -/
def trimField : List Char → List Char
  | []     => []
  | c :: s => c :: Text.trimRight s

/-- What stands in front of parentheses at the end of a text, and what between them: they open with
the first that is not at the start. -/
def enclosed? (s : List Char) : Option (List Char × List Char) :=
  if (Text.trimRight s).getLast? = some ')' then
    (cut ['('] (Text.trimRight s)).map fun (u, r) => (u, r.dropLast)
  else none

/-- How an annotation ends. -/
inductive Tail where
  /-- With a field. -/
  | plain (p : Part)
  /-- With a field and perhaps a reference. -/
  | referenced (p : Part)
  /-- With a package and perhaps another name for it. -/
  | named

/-- Another name of a package. -/
def otherName : Pattern Part := .chain [" as ", .field .knownAs]

namespace Tail

def pattern : Tail → Pattern Part
  | plain p      => .chain [.field p, ending]
  | referenced p => .chain [.field p, reference]
  | named        => .chain [.field .package, .optional otherName, ending]

/-- The fields of the text at the end. -/
def fields : Tail → List Char → Fields
  | plain p, s      => [(p, String.ofList (trimField s))]
  | referenced p, s =>
    match enclosed? s with
    | some (u, t) => [(p, String.ofList (trimField u)), (.reference, String.ofList t)]
    | none        => [(p, String.ofList (trimField s))]
  | named, s        =>
    match cut " as ".toList s with
    | some (u, c :: r) =>
      [(.package, String.ofList u), (.knownAs, String.ofList (trimField (c :: r)))]
    | _ => [(.package, String.ofList (trimField s))]

/-- The fields that the end may have. -/
def parts : Tail → List (List Part)
  | plain p      => [[p]]
  | referenced p => [[p], [p, .reference]]
  | named        => [[.package], [.package, .knownAs]]

theorem map_fst_fields (t : Tail) (s : List Char) : (t.fields s).map Prod.fst ∈ t.parts := by
  cases t <;> rw [fields]
  all_goals
    try split
    all_goals simp [parts]

/-- The end takes any text that is not empty. -/
def split? (t : Tail) (s : List Char) : Option Fields := if s = [] then none else some (t.fields s)

end Tail

/-! ### Blanks at the end of a line -/

section
variable {κ : Type} {b s : List Char} {kept : Kept κ}

theorem run_ending (hb : ∀ c ∈ b, Text.isBlank c = true) :
    (chain [.many true Text.isBlank, .finish]).run keep b kept = some kept := by
  rw [← List.append_nil b]
  exact run_many hb nofun rfl

theorem reads_ending (hn : '\n' ∉ s) {r : List Char}
    (h : (chain [.many true Text.isBlank, .finish] : Pattern κ).Reads s r) :
    ∀ c ∈ s, Text.isBlank c = true := by
  obtain ⟨m, ⟨b, hb, rfl⟩, rfl, rfl | rfl⟩ := h
  · simpa using hb
  · simp at hn

theorem run_ending_eq_none (hn : '\n' ∉ s) (hs : ∃ c ∈ s, Text.isBlank c = false) :
    (chain [.many true Text.isBlank, .finish]).run keep s kept = none := by
  refine run_eq_none fun r hr _ => ?_
  obtain ⟨c, hc, hblank⟩ := hs
  rw [reads_ending hn hr c hc] at hblank
  cases hblank

end

section
variable {b s : List Char} {kept : Kept Part}

/-- A field leaves the blanks behind it to what follows, if that takes blanks and fails on
everything else in front of `w`. -/
theorem run_trimField {T : Pattern Part} {p : Part} {fs : Fields} {c : Char} {u w : List Char}
    (hn : '\n' ∉ c :: u)
    (hblank : ∀ b, (∀ d ∈ b, Text.isBlank d = true) → ∀ kept,
      ∃ kept', T.run keep (b ++ w) kept = some kept' ∧ texts kept' = texts kept ++ fs)
    (hearly : ∀ v, v <:+ u → (∃ d ∈ v, Text.isBlank d = false) → ∀ kept,
      T.run keep (v ++ w) kept = none) (kept : Kept Part) :
    ∃ kept', (Pattern.seq (.field p) T).run keep (c :: u ++ w) kept = some kept' ∧
      texts kept' = texts kept ++ (p, String.ofList (trimField (c :: u))) :: fs := by
  obtain ⟨b, hb, hu⟩ := Text.trimRight_append_blanks u
  have hfield : c :: u ++ w = c :: Text.trimRight u ++ (b ++ w) :=
    calc c :: u ++ w = c :: (Text.trimRight u ++ b) ++ w := by rw [hu]
      _ = c :: Text.trimRight u ++ (b ++ w) := by simp
  have hline : '\n' ∉ c :: Text.trimRight u := fun hm =>
    hn (by simpa [hu] using List.mem_append_left b hm)
  obtain ⟨kept', hrun, htexts⟩ := hblank b hb
    ((p, ⟨c :: Text.trimRight u ++ (b ++ w), b ++ w⟩) :: kept)
  rw [hfield]
  refine ⟨kept', run_field (by simp) hline (fun a v hav ha hv kept' => ?_) hrun, ?_⟩
  · obtain ⟨d, a, rfl⟩ := List.exists_cons_of_ne_nil ha
    have htrim : Text.trimRight u = a ++ v := (List.cons.inj hav).2
    obtain ⟨e, he, hblank⟩ := Text.exists_not_isBlank_of_trimRight htrim hv
    rw [← List.append_assoc]
    exact hearly _ ⟨a, by rw [← List.append_assoc, ← htrim, hu]⟩ ⟨e, by simp [he], hblank⟩ kept'
  · rw [htexts, texts_cons, List.append_assoc]
    rfl

/-- A last field leaves the blanks at the end of the line. -/
theorem run_last {T : Pattern Part} {p : Part} {c : Char} (hn : '\n' ∉ c :: s)
    (hblank : ∀ b, (∀ d ∈ b, Text.isBlank d = true) → ∀ kept, T.run keep b kept = some kept)
    (hearly : ∀ v, v <:+ s → (∃ d ∈ v, Text.isBlank d = false) → ∀ kept,
      T.run keep v kept = none) :
    ∃ kept', (Pattern.seq (.field p) T).run keep (c :: s) kept = some kept' ∧
      texts kept' = texts kept ++ [(p, String.ofList (trimField (c :: s)))] := by
  have hrun := run_trimField (T := T) (p := p) (w := []) hn
    (fun b hb kept => ⟨kept, by rw [List.append_nil, hblank b hb], (List.append_nil _).symm⟩)
    (fun v hv hnb kept => by rw [List.append_nil, hearly v hv hnb]) kept
  rwa [List.append_nil] at hrun

/-- A field to the end of the line. -/
theorem run_plain (p : Part) {c : Char} (hn : '\n' ∉ c :: s) (kept : Kept Part) :
    ∃ kept', (Tail.plain p).pattern.run keep (c :: s) kept = some kept' ∧
      texts kept' = texts kept ++ (Tail.plain p).fields (c :: s) := by
  refine run_last hn (fun b hb kept => run_ending hb) fun b hb hblank kept => ?_
  exact run_ending_eq_none (fun hm => hn (List.mem_cons_of_mem c (hb.mem hm))) hblank

/-! ### References -/

theorem exists_of_enclosed? {u t : List Char} (h : enclosed? s = some (u, t)) :
    ∃ b, (∀ c ∈ b, Text.isBlank c = true) ∧ s = u ++ '(' :: (t ++ ')' :: b) ∧
      FirstCut ['('] (Text.trimRight s) u (t ++ [')']) := by
  rw [enclosed?] at h
  split at h
  case isFalse => cases h
  rename_i hlast
  obtain ⟨⟨u, r⟩, hcut, h⟩ := Option.map_eq_some_iff.mp h
  cases h
  have hfirst := firstCut_of_cut hcut
  obtain ⟨b, hb, hs⟩ := Text.trimRight_append_blanks s
  have hr : r.dropLast ++ [')'] = r := by
    rw [hfirst.eq_append] at hlast
    refine List.dropLast_append_getLast? _ ?_
    cases r with
    | nil => simp at hlast
    | cons d r => simpa using hlast
  rw [← hr] at hfirst
  refine ⟨b, hb, ?_, hfirst⟩
  rw [← hs, hfirst.eq_append]
  simp

theorem enclosed?_ne_none {u t : List Char} (hu : u ≠ []) (hb : ∀ c ∈ b, Text.isBlank c = true)
    (hs : s = u ++ '(' :: (t ++ ')' :: b)) : enclosed? s ≠ none := by
  have htrim : Text.trimRight s = u ++ (['('] ++ (t ++ [')'])) := by
    have hclose : Text.isBlank ')' = false := by decide
    have happ : s = u ++ '(' :: t ++ [')'] ++ b := by simp [hs]
    rw [happ, Text.trimRight_append hb, Text.trimRight_concat, hclose]
    simp
  obtain ⟨u', r', hcut, -⟩ := exists_cut hu htrim
  have hlast : (Text.trimRight s).getLast? = some ')' := by
    rw [htrim, ← List.append_assoc, ← List.append_assoc, List.getLast?_concat]
  rw [enclosed?, if_pos hlast, hcut]
  simp

theorem run_reference (hb : ∀ c ∈ b, Text.isBlank c = true) :
    reference.run keep b kept = some kept := by
  rw [← List.append_nil b]
  exact eagerly_append hb rfl

/-- What a reference is read from. -/
theorem reads_reference (hn : '\n' ∉ s) {r : List Char} (h : reference.Reads s r) :
    (∀ c ∈ s, Text.isBlank c = true) ∨ ∃ b t b', (∀ c ∈ b, Text.isBlank c = true) ∧
      (∀ c ∈ b', Text.isBlank c = true) ∧ s = b ++ '(' :: (t ++ ')' :: b') := by
  obtain ⟨m, ⟨b, hb, rfl⟩, m', henclosed, hend⟩ := h
  rcases henclosed with ⟨_, hopen, _, ⟨t, -, rfl⟩, hclose⟩ | rfl
  · obtain rfl : m = '(' :: _ := hopen
    obtain rfl : _ = ')' :: m' := hclose
    refine .inr ⟨b, t, m', hb, reads_ending (fun hm => hn ?_) hend, rfl⟩
    simp_all
  · simp only [List.mem_append, not_or] at hn
    have hm := reads_ending hn.2 hend
    exact .inl fun c hc => (List.mem_append.mp hc).elim (hb c) (hm c)

/-- No reference opens in front of text without its parenthesis. -/
theorem run_reference_eq_none {v w : List Char} (hn : '\n' ∉ v ++ w) (hopen : '(' ∉ v)
    (hv : ∃ c ∈ v, Text.isBlank c = false) : reference.run keep (v ++ w) kept = none := by
  obtain ⟨e, he, heb⟩ := hv
  refine run_eq_none fun r hr _ => ?_
  rcases reads_reference hn hr with hall | ⟨b, t, b', hb, -, hread⟩
  · rw [hall e (by simp [he])] at heb
    cases heb
  · rcases List.append_eq_append_iff.mp hread with ⟨x, rfl, -⟩ | ⟨x, rfl, hx⟩
    · rw [hb e (by simp [he])] at heb
      cases heb
    · cases x with
      | nil =>
          rw [hb e (by simpa using he)] at heb
          cases heb
      | cons d x =>
          obtain rfl : '(' = d := (List.cons.inj hx).1
          simp at hopen

/-- A reference is kept up to the last parenthesis. -/
theorem run_reference_enclosed {t b' : List Char} (hn : '\n' ∉ t ++ ')' :: b')
    (hb : ∀ c ∈ b, Text.isBlank c = true) (hb' : ∀ c ∈ b', Text.isBlank c = true) :
    reference.run keep (b ++ '(' :: (t ++ ')' :: b')) kept =
      some ((.reference, ⟨t ++ ')' :: b', ')' :: b'⟩) :: kept) := by
  have hnewline := notNewline_of_not_mem fun hm => hn (List.mem_append_left (')' :: b') hm)
  have hearly : ∀ a v, t = a ++ v → v ≠ [] → ∀ kept',
      (Pattern.lit ")").run (ending.run keep) (v ++ ')' :: b') kept' = none := by
    -- an earlier parenthesis leaves the last one, which is no blank
    rintro a v rfl hv kept'
    obtain ⟨d, v, rfl⟩ := List.exists_cons_of_ne_nil hv
    refine run_eq_none fun r hr kept'' => ?_
    have hr : d :: (v ++ ')' :: b') = ')' :: r := hr
    obtain rfl : v ++ ')' :: b' = r := (List.cons.inj hr).2
    exact run_ending_eq_none (fun hm => hn (by simp_all)) ⟨')', by simp, by decide⟩
  have henclosed : (chain ["(", capture .reference (many false notNewline), ")"]).run
      (ending.run keep) ('(' :: (t ++ ')' :: b')) kept =
        some ((.reference, ⟨t ++ ')' :: b', ')' :: b'⟩) :: kept) := by
    refine (run_lit "(" _ _ _).trans ?_
    refine (lazily_append hnewline fun a v hav hv => hearly a v hav hv _).trans ?_
    exact lazily_of_some ((run_lit ")" _ _ _).trans (run_ending hb'))
  refine eagerly_append hb ?_
  have hopen : Text.isBlank '(' = false := by decide
  simp only [eagerly, hopen, Bool.false_eq_true, if_false]
  exact run_optional_of_some henclosed

/-! ### The three ends -/

namespace Tail

variable {c : Char}

theorem reads_referenced {p : Part} (hn : '\n' ∉ c :: s) :
    ∃ kept', (referenced p).pattern.run keep (c :: s) kept = some kept' ∧
      texts kept' = texts kept ++ (referenced p).fields (c :: s) := by
  rw [fields]
  split
  · rename_i u t hcut
    obtain ⟨b', hb', hs, hfirst⟩ := exists_of_enclosed? hcut
    obtain ⟨d, u, rfl⟩ := List.exists_cons_of_ne_nil hfirst.ne_nil
    rw [hs] at hn ⊢
    simp only [List.mem_append, not_or] at hn
    refine run_trimField hn.1 (fun b hb kept => ⟨_, run_reference_enclosed ?_ hb hb', ?_⟩)
      (fun v hv hblank kept => ?_) kept
    · simpa using hn.2
    · exact texts_cons ..
    · have hnv : '\n' ∉ v := fun hm => hn.1 (List.mem_cons_of_mem d (hv.mem hm))
      have hnw : '\n' ∉ v ++ '(' :: (t ++ ')' :: b') := fun hm =>
        (List.mem_append.mp hm).elim hnv hn.2
      exact run_reference_eq_none hnw (fun hm => hfirst.not_mem (hv.mem hm)) hblank
  · rename_i hcut
    refine run_last hn (fun b hb kept => run_reference hb) fun b hb hblank kept => ?_
    have hnb : '\n' ∉ b := fun hm => hn (List.mem_cons_of_mem c (hb.mem hm))
    refine run_eq_none fun r hr _ => ?_
    rcases reads_reference hnb hr with hall | ⟨b₁, t, b₂, -, hb₂, rfl⟩
    · obtain ⟨d, hd, hdb⟩ := hblank
      rw [hall d hd] at hdb
      cases hdb
    · -- a reference anywhere in the text would have been cut off
      obtain ⟨a, rfl⟩ := hb
      refine absurd hcut (enclosed?_ne_none (u := c :: (a ++ b₁)) (t := t) (b := b₂) ?_ hb₂ ?_)
      · simp
      · simp

/-- Without another name the optional one takes no part. -/
theorem run_ending_of_ne (h : ∀ r, r ≠ [] → s ≠ " as ".toList ++ r) :
    (Pattern.seq (.optional otherName) ending).run keep s kept = ending.run keep s kept := by
  refine run_optional_of_none (a := otherName) (run_eq_none fun r hr _ => ?_)
  obtain ⟨m, hm, hfield⟩ := hr
  obtain ⟨u, hu, -, rfl⟩ := reads_several.mp hfield
  exact absurd hm (h _ (by simp [hu]))

theorem reads_named (hn : '\n' ∉ c :: s) :
    ∃ kept', named.pattern.run keep (c :: s) kept = some kept' ∧
      texts kept' = texts kept ++ named.fields (c :: s) := by
  rw [fields]
  split
  · rename_i u d r hcut
    have hfirst := firstCut_of_cut hcut
    rw [hfirst.eq_append] at hn ⊢
    simp only [List.mem_append, not_or] at hn
    obtain ⟨kept', hrun, htexts⟩ := run_plain .knownAs hn.2.2
      ((.package, ⟨u ++ (" as ".toList ++ d :: r), " as ".toList ++ d :: r⟩) :: kept)
    refine ⟨kept', run_field hfirst.ne_nil hn.1 (fun a v hav ha hv kept'' => ?_)
      (run_optional_of_some ((run_lit " as " _ _ _).trans hrun)), ?_⟩
    · have hnv : '\n' ∉ v := fun hm => hn.1 (by simp [hav, hm])
      refine (run_ending_of_ne fun r' _ hr' => ?_).trans ?_
      · have hnone := hfirst.afterText?_eq_none hav ha hv
        rw [hr', afterText?_append] at hnone
        cases hnone
      · exact run_ending_eq_none (by simpa [hnv] using hn.2.2) ⟨'a', by simp, by decide⟩
    · rw [htexts, texts_cons, List.append_assoc]
      rfl
  · rename_i hcut
    refine run_last hn (fun b hb kept' => ?_) fun b hb hblank kept' => ?_
    · refine (run_ending_of_ne fun r _ hr => ?_).trans (run_ending hb)
      exact absurd (hb 'a' (by simp [hr])) (by decide)
    · refine (run_ending_of_ne fun r hne hr => ?_).trans
        (run_ending_eq_none (fun hm => hn (List.mem_cons_of_mem c (hb.mem hm))) hblank)
      -- the text would have been cut at another name
      obtain ⟨a, rfl⟩ := hb
      have hs : c :: (a ++ b) = c :: a ++ (" as ".toList ++ r) := by rw [hr]; rfl
      obtain ⟨u, r', hsome, hsuffix⟩ := exists_cut (by simp) hs
      cases r' with
      | nil => exact hne (List.suffix_nil.mp hsuffix)
      | cons d r' => exact hcut u d r' hsome

/-- **What an annotation ends in is read like that.** -/
theorem splits (t : Tail) : Splits t.pattern t.split? where
  reads {s fs} hn hfs kept := by
    cases s with
    | nil => cases hfs
    | cons c s =>
        obtain rfl := Option.some.inj (hfs : some (t.fields (c :: s)) = some fs)
        cases t with
        | plain p => exact run_plain p hn kept
        | referenced p => exact reads_referenced hn
        | named => exact reads_named hn
  fails {s} hn hnone kept := by
    cases s with
    | nil => cases t <;> rfl
    | cons c s => cases hnone
  persists {r s} hsuffix hsome := by
    cases s with
    | nil => rwa [List.suffix_nil.mp hsuffix] at hsome
    | cons c s => rfl

end Tail

end

/-! ### Forms -/

/-- Splits at the separators behind the fields, and what is left at the end of the annotation. -/
def splitAt? (t : Tail) : List (Part × String) → List Char → Option Fields
  | []               => t.split?
  | (p, sep) :: cuts => splitFirst p sep (splitAt? t cuts)

/-- The pattern of fields with separators behind them, and of the end. -/
def cutPattern (t : Tail) : List (Part × String) → Pattern Part
  | []               => t.pattern
  | (p, sep) :: cuts => .seq (.field p) (.seq (.lit sep) (cutPattern t cuts))

/-- **Fields are split from left to right.** -/
theorem splits_cutPattern (t : Tail) (cuts : List (Part × String)) :
    Splits (cutPattern t cuts) (splitAt? t cuts) := by
  induction cuts with
  | nil => exact t.splits
  | cons x cuts ih => exact ih.cut x.1 x.2

theorem map_fst_splitAt? {t : Tail} {cuts : List (Part × String)} {s : List Char} {fs : Fields}
    (h : splitAt? t cuts s = some fs) :
    ∃ ps ∈ t.parts, fs.map Prod.fst = cuts.map Prod.fst ++ ps := by
  induction cuts generalizing s fs with
  | nil =>
      rw [splitAt?, Tail.split?] at h
      split at h
      · cases h
      · cases h
        exact ⟨_, t.map_fst_fields s, rfl⟩
  | cons x cuts ih =>
      rw [splitAt?, splitFirst] at h
      split at h
      · cases h
      · obtain ⟨fs, hfs, rfl⟩ := Option.map_eq_some_iff.mp h
        obtain ⟨ps, hps, hmap⟩ := ih hfs
        exact ⟨ps, hps, by simp [hmap]⟩

namespace Form

/-- The fields of a form in front of its separators, with the separators. -/
def cuts : Form → List (Part × String)
  | package    => []
  | header     => [(.model, " for ")]
  | mitigation => [(.component, " against "), (.threat, " with ")]
  | exposure   => [(.component, " to "), (.threat, " with ")]
  | capability => [(.action, " for ")]
  | flow       => [(.subject, " from "), (.source, " to ")]
  | test       => [(.function, " for ")]
  | calls      => []

/-- How a form ends. -/
def tail : Form → Tail
  | package    => .named
  | header     => .plain .function
  | mitigation => .referenced .mitigation
  | exposure   => .referenced .exposure
  | capability => .referenced .component
  | flow       => .plain .target
  | test       => .referenced .threat
  | calls      => .plain .functions

/-- A pattern behind the keyword of a form. -/
def opened (T : Pattern Part) : Form → Pattern Part
  | package    => .seq "ThreatSpec package " T
  | header     => .seq "ThreatSpec " T
  | mitigation => .seq "Mitigates " T
  | exposure   => .seq "Exposes " T
  | capability => .seq (.choice ["It", "Does", "Creates", "Returns"]) (.seq " " T)
  | flow       => .seq (.capture .direction (.choice ["Sends", "Receives"])) (.seq " " T)
  | test       => .seq "Tests " T
  | calls      => .seq "Calls " T

theorem pattern_eq (f : Form) : f.pattern = .seq comment (f.opened (cutPattern f.tail f.cuts)) := by
  cases f <;> rfl

end Form

end Annotations

end ThreatModel
