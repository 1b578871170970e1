import Mathlib.Data.List.Nodup
import Mathlib.Data.List.TakeWhile
import ThreatModel.Ledger
import ThreatModel.Proofs.Annotations.Rules

/-!
# Splitting — annotations are split once from left to right

The text of a comment opens with a keyword (`Form.keyword?`), and what stands behind it is cut at
the separators of the form, each time at the first one behind the first character (`splitAt?`).
That is what the patterns of the forms find, though they try every place and come back.

* `Form.split?_isSome_iff`: a line can be split iff it can be cut at the separators in any way.
* `Form.matches_split`: a pattern matches a line iff it is written in the form, and then its
  fields are those of the split.
-/

namespace ThreatModel.Annotations

open Pattern

/-! ### Splitting a line -/

namespace Form

/-- The keyword that a text opens with, and what stands behind it. -/
def keyword? (f : Form) (t : List Char) : Option (String × List Char) :=
  f.keywords.findSome? fun w => (afterText? w.toList t).map (w, ·)

/-- The keyword of a flow is its direction, those of other forms are no fields. -/
def spoken (f : Form) (w : String) : Fields :=
  if f = .flow then [(.direction, String.ofList w.toList.dropLast)] else []

/-- The fields of a line, split once from left to right. -/
def split? (f : Form) (line : List Char) : Option Fields := do
  let t ← commentText? line
  let (w, s) ← f.keyword? t
  let fs ← splitAt? f.tail f.cuts s
  return f.spoken w ++ fs

end Form

/-- A text can be cut at separators in their order so that no field is empty. -/
inductive Cuttable : List String → List Char → Prop where
  | last {s : List Char} (hs : s ≠ []) : Cuttable [] s
  | cut {sep : String} {seps : List String} {u r : List Char} (hu : u ≠ []) (hr : Cuttable seps r) :
      Cuttable (sep :: seps) (u ++ (sep.toList ++ r))

/-- A line in a form: the mark of a comment between blanks, a keyword, and a text with the
separators of the form. -/
def Form.Written (f : Form) (line : List Char) : Prop :=
  ∃ b m b' w s, (∀ c ∈ b, Text.isBlank c = true) ∧ m ∈ ["//", "#"] ∧
    (∀ c ∈ b', Text.isBlank c = true) ∧ w ∈ f.keywords ∧ Cuttable (f.cuts.map Prod.snd) s ∧
    line = b ++ (m.toList ++ (b' ++ (w.toList ++ s)))

/-! ### Keywords -/

namespace Form

variable {f : Form} {w : String} {s t : List Char}

theorem keyword?_append (hw : w ∈ f.keywords) (s : List Char) :
    f.keyword? (w.toList ++ s) = some (w, s) := by
  cases f with
  | package | header | mitigation | exposure | test | calls =>
      obtain rfl := List.mem_singleton.mp hw
      simp [keyword?, keywords, afterText?]
  | capability =>
      simp only [keywords, List.mem_cons, List.not_mem_nil, or_false] at hw
      rcases hw with rfl | rfl | rfl | rfl <;> simp [keyword?, keywords, afterText?]
  | flow =>
      simp only [keywords, List.mem_cons, List.not_mem_nil, or_false] at hw
      rcases hw with rfl | rfl <;> simp [keyword?, keywords, afterText?]

theorem eq_of_keyword? (h : f.keyword? t = some (w, s)) : w ∈ f.keywords ∧ t = w.toList ++ s := by
  obtain ⟨v, hv, h⟩ := List.exists_of_findSome?_eq_some h
  obtain ⟨r, hr, h⟩ := Option.map_eq_some_iff.mp h
  cases h
  exact ⟨hv, afterText?_eq_some_iff.mp hr⟩

/-- The search passes over a keyword, and keeps the direction of a flow. -/
theorem run_opened (hw : w ∈ f.keywords) (T : Pattern Part) (s : List Char) (kept : Kept Part) :
    ∃ kept', (f.opened T).run keep (w.toList ++ s) kept = T.run keep s kept' ∧
      texts kept' = texts kept ++ f.spoken w := by
  cases f with
  | package | header | mitigation | exposure | test | calls =>
      obtain rfl := List.mem_singleton.mp hw
      exact ⟨kept, run_lit .., by simp [spoken]⟩
  | capability =>
      simp only [keywords, List.mem_cons, List.not_mem_nil, or_false] at hw
      refine ⟨kept, ?_, by simp [spoken]⟩
      -- of the four words only the one that is there leads on
      rcases hw with rfl | rfl | rfl | rfl
      · exact Option.or_none
      · exact Option.or_none
      · exact Option.or_none
      · rfl
  | flow =>
      simp only [keywords, List.mem_cons, List.not_mem_nil, or_false] at hw
      refine ⟨(.direction, ⟨w.toList.dropLast ++ (" ".toList ++ s), " ".toList ++ s⟩) :: kept, ?_,
        by simp [spoken, texts_cons]⟩
      rcases hw with rfl | rfl
      · exact Option.or_none
      · rfl

end Form

/-! ### Comments -/

/-- The search passes over the opening of a comment and all blanks, if what follows opens with no
blank. -/
theorem run_comment {k : List Char → Kept Part → Option (Kept Part)} {kept : Kept Part}
    (hk : ∀ c s, Text.isBlank c = true → k (c :: s) kept = none) (line : List Char) :
    comment.run k line kept = (commentText? line).bind (k · kept) := by
  have hblanks : ∀ s, blanks.run k s kept = k (Text.dropBlanks s) kept := eagerly_eq_dropWhile hk
  have hmarks : ∀ c s, Text.isBlank c = true →
      (choice ["//", "#"]).run (blanks.run k) (c :: s) kept = none := by
    intro c s hc
    have hslash : '/' ≠ c := by
      rintro rfl
      exact absurd hc (by decide)
    have hhash : '#' ≠ c := by
      rintro rfl
      exact absurd hc (by decide)
    simp [choice, run, afterText?, hslash, hhash]
  have hopen : comment.run k line kept =
      (choice ["//", "#"]).run (blanks.run k) (Text.dropBlanks line) kept :=
    eagerly_eq_dropWhile hmarks line
  rw [hopen, commentText?]
  split
  · rename_i s hs
    simp [hs, choice, run, afterText?, hblanks]
  · rename_i s hs
    simp [hs, choice, run, afterText?, hblanks]
  · rename_i hslashes hhash
    refine run_eq_none fun r hr kept' => ?_
    rcases hr with hr | hr
    · exact absurd hr (hslashes _)
    · exact absurd hr (hhash _)

theorem reads_blanks (s : List Char) : blanks.Reads s (Text.dropBlanks s) :=
  ⟨s.takeWhile Text.isBlank, fun _ => List.mem_takeWhile_imp, List.takeWhile_append_dropWhile.symm⟩

/-- The opening of a comment is read up to its text. -/
theorem reads_of_commentText? {line t : List Char} (h : commentText? line = some t) :
    comment.Reads line t := by
  rw [commentText?] at h
  split at h
  · rename_i s hs
    cases h
    exact ⟨'/' :: '/' :: s, hs ▸ reads_blanks line, s, .inl rfl, reads_blanks s⟩
  · rename_i s hs
    cases h
    exact ⟨'#' :: s, hs ▸ reads_blanks line, s, .inr rfl, reads_blanks s⟩
  · cases h

theorem commentText?_suffix {line t : List Char} (h : commentText? line = some t) : t <:+ line :=
  (reads_of_commentText? h).suffix

namespace Form

variable {f : Form} {line : List Char}

/-- A keyword opens with no blank. -/
theorem run_opened_eq_none {T : Pattern Part} {c : Char} {s : List Char} {kept : Kept Part}
    (hc : Text.isBlank c = true) : (f.opened T).run keep (c :: s) kept = none := by
  refine run_eq_none fun r hr _ => ?_
  obtain ⟨w, hw, t, hs⟩ := exists_keyword_of_opened hr
  have hhead := f.keyword_head w hw
  cases hchars : w.toList with
  | nil => simp [hchars] at hhead
  | cons d u =>
      rw [hchars] at hs hhead
      obtain rfl : c = d := (List.cons.inj hs).1
      simp [hc] at hhead

/-- **The fields of a match are those of the split.** -/
theorem texts_match? (f : Form) {line : String} (hn : '\n' ∉ line.toList) :
    (f.pattern.match? line).map texts = f.split? line.toList := by
  have hmatch : f.pattern.match? line =
      (commentText? line.toList).bind ((f.opened (cutPattern f.tail f.cuts)).run keep · []) := by
    rw [match?, pattern_eq]
    exact run_comment (fun c s hc => run_opened_eq_none hc) line.toList
  rw [hmatch, split?]
  cases ht : commentText? line.toList with
  | none => rfl
  | some t =>
      have hnt : '\n' ∉ t := fun hm => hn ((commentText?_suffix ht).mem hm)
      cases hw : f.keyword? t with
      | none =>
          have hfails : (f.opened (cutPattern f.tail f.cuts)).run keep t [] = none := by
            refine run_eq_none fun r hr _ => ?_
            obtain ⟨w, hmem, s, rfl⟩ := exists_keyword_of_opened hr
            rw [keyword?_append hmem] at hw
            cases hw
          simp [hfails, hw]
      | some x =>
          obtain ⟨w, s⟩ := x
          obtain ⟨hmem, rfl⟩ := eq_of_keyword? hw
          have hns : '\n' ∉ s := fun hm => hnt (List.mem_append_right _ hm)
          obtain ⟨kept', hrun, htexts⟩ := run_opened hmem (cutPattern f.tail f.cuts) s []
          cases hsplit : splitAt? f.tail f.cuts s with
          | none => simp [hw, hrun, hsplit, (splits_cutPattern _ _).fails hns hsplit kept']
          | some fs =>
              obtain ⟨kept'', hfields, htexts'⟩ :=
                (splits_cutPattern _ _).reads hns hsplit kept'
              have hall : texts kept'' = f.spoken w ++ fs := by
                rw [htexts', htexts]
                rfl
              simp [hw, hrun, hsplit, hfields, hall]

/-! ### Lines that can be split -/

/-- The first cuts succeed if any do. -/
theorem splitAt?_isSome_iff {t : Tail} {cuts : List (Part × String)} {s : List Char} :
    (splitAt? t cuts s).isSome ↔ Cuttable (cuts.map Prod.snd) s := by
  induction cuts generalizing s with
  | nil =>
      refine ⟨fun h => .last ?_, ?_⟩
      · rintro rfl
        cases h
      · rintro ⟨hs⟩
        simp [splitAt?, Tail.split?, hs]
  | cons x cuts ih =>
      obtain ⟨p, sep⟩ := x
      rw [splitAt?, splitFirst]
      refine ⟨fun h => ?_, ?_⟩
      · cases hcut : cut sep.toList s with
        | none => simp [hcut] at h
        | some y =>
            obtain ⟨u, r⟩ := y
            have hfirst := firstCut_of_cut hcut
            rw [hfirst.eq_append]
            exact .cut hfirst.ne_nil (ih.mp (by simpa [hcut] using h))
      · rintro (_ | ⟨hu, hr⟩)
        obtain ⟨u', r', hcut, hsuffix⟩ := exists_cut hu rfl
        rw [hcut, Option.isSome_map]
        exact (splits_cutPattern t cuts).persists hsuffix (ih.mpr hr)

/-- **A line can be split iff it is written in the form.** -/
theorem split?_isSome_iff : (f.split? line).isSome ↔ f.Written line := by
  refine ⟨fun h => ?_, ?_⟩
  · obtain ⟨fs, h⟩ := Option.isSome_iff_exists.mp h
    simp only [split?, Option.bind_eq_bind, Option.bind_eq_some_iff, Prod.exists] at h
    obtain ⟨t, ht, w, s, hw, fs, hfs, -⟩ := h
    obtain ⟨hmem, rfl⟩ := eq_of_keyword? hw
    have hcut := splitAt?_isSome_iff.mp (Option.isSome_iff_exists.mpr ⟨fs, hfs⟩)
    obtain ⟨_, ⟨b, hb, rfl⟩, _, hmark, b', hb', rfl⟩ := reads_of_commentText? ht
    rcases hmark with rfl | rfl
    · exact ⟨b, "//", b', w, s, hb, by simp, hb', hmem, hcut, rfl⟩
    · exact ⟨b, "#", b', w, s, hb, by simp, hb', hmem, hcut, rfl⟩
  · rintro ⟨b, m, b', w, s, hb, hm, hb', hmem, hcut, rfl⟩
    have hmark : (choice ["//", "#"] : Pattern Part).Reads (m.toList ++ (b' ++ (w.toList ++ s)))
        (b' ++ (w.toList ++ s)) := by
      simp only [List.mem_cons, List.not_mem_nil, or_false] at hm
      rcases hm with rfl | rfl
      · exact .inl rfl
      · exact .inr rfl
    have ht := commentText?_of_keyword hmem ⟨_, ⟨b, hb, rfl⟩, _, hmark, b', hb', rfl⟩
    obtain ⟨fs, hfs⟩ := Option.isSome_iff_exists.mp
      ((splitAt?_isSome_iff (t := f.tail)).mpr hcut)
    simp [split?, ht, keyword?_append hmem, hfs]

/-! ### Fields -/

/-- No field is there twice. -/
theorem nodup_split? {fs : Fields} (h : f.split? line = some fs) : (fs.map Prod.fst).Nodup := by
  simp only [split?, Option.bind_eq_bind, Option.bind_eq_some_iff, Prod.exists] at h
  obtain ⟨t, -, w, s, -, fs, hfs, h⟩ := h
  cases h
  obtain ⟨ps, hps, hmap⟩ := map_fst_splitAt? hfs
  have hnodup : ∀ ps ∈ f.tail.parts,
      ((f.spoken w).map Prod.fst ++ (f.cuts.map Prod.fst ++ ps)).Nodup := by
    cases f <;> simp [spoken, cuts, tail, Tail.parts]
  rw [List.map_append, hmap]
  exact hnodup ps hps

/-- A field has the text that was kept for it. -/
theorem lookup_texts {m : Match Part} (h : ((texts m).map Prod.fst).Nodup) (p : Part) :
    Ledger.lookup p (texts m) = m.get? p := by
  have hkept : ∀ m : Match Part, Ledger.lookup p (m.map textOf) = m.get? p := by
    intro m
    induction m with
    | nil => rfl
    | cons x m ih =>
        by_cases hx : x.1 = p
        · simp [Ledger.lookup, Match.get?, textOf, hx]
        · simpa [Ledger.lookup, Match.get?, textOf, hx] using ih
  have hnodup : ((m.map textOf).map Prod.fst).Nodup := by
    rw [← List.nodup_reverse, ← List.map_reverse, ← List.map_reverse]
    exact h
  refine Option.ext fun v => ?_
  rw [← hkept, Ledger.lookup_eq_some_iff h, Ledger.lookup_eq_some_iff hnodup, texts,
    List.map_reverse, List.mem_reverse]

/-- **Every form is split once from left to right.**  A pattern matches a line iff the line is
written in the form, whichever way its separators are read; and each field has the text that the
first separators give it. -/
theorem matches_split (f : Form) {line : String} (hn : '\n' ∉ line.toList) :
    ((f.pattern.match? line).isSome ↔ f.Written line.toList) ∧
    (f.pattern.match? line).map Match.get? =
      (f.split? line.toList).map fun fs p => Ledger.lookup p fs := by
  have htexts := texts_match? f hn
  refine ⟨by rw [← split?_isSome_iff, ← htexts, Option.isSome_map], ?_⟩
  cases hm : f.pattern.match? line with
  | none =>
      rw [← htexts, hm]
      rfl
  | some m =>
      rw [hm] at htexts
      rw [← htexts]
      refine congrArg some (funext fun p => ?_)
      exact (lookup_texts (nodup_split? htexts.symm) p).symm

/-- Separators that come again, and parentheses in a reference. -/
theorem matches_split_nested :
    (mitigation.pattern.match? " # Mitigates a against  against b with c with (d) (e)\t").map
      Match.get? = some fun p => Ledger.lookup p [(.component, "a"), (.threat, " against b"),
        (.mitigation, "c with"), (.reference, "d) (e")] := by
  have hn : '\n' ∉ " # Mitigates a against  against b with c with (d) (e)\t".toList := by
    decide +kernel
  have hsplit : mitigation.split? " # Mitigates a against  against b with c with (d) (e)\t".toList =
      some [(.component, "a"), (.threat, " against b"), (.mitigation, "c with"),
        (.reference, "d) (e")] := by decide +kernel
  have hfields := (matches_split mitigation hn).2
  rw [hsplit] at hfields
  exact hfields

end Form

end ThreatModel.Annotations
