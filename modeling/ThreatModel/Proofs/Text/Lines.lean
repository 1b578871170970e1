import Mathlib.Data.List.Chain
import ThreatModel.Text.Lines

/-!
# Lines — a text is cut at its line ends, whichever they are

A text can be written line by line with an end of any kind behind each line (`Writing`); only two
ends must not run into one, as `\r` and `\n` around an empty line would.  The cut undoes the
writing: `Writing.lines_text`.  Step by step it is two replacements, a cut at `\n` alone, and a last
piece that is dropped if it is empty: `lines_eq_dropEmptyLast`.

Two facts about `lines` carry it, and all else that is said of texts cut into lines.
* `lines_append_line`: text without line ends joins the line that it stands in front of.
* `lines_append`: behind a line end the cut starts anew.
-/

namespace ThreatModel.Text

/-- The text has no line end. -/
def IsLine (l : List Char) : Prop := '\r' ∉ l ∧ '\n' ∉ l

instance (l : List Char) : Decidable (IsLine l) := inferInstanceAs (Decidable (_ ∧ _))

variable {c : Char} {l s t : List Char}

theorem isLine_cons : IsLine (c :: l) ↔ c ≠ '\r' ∧ c ≠ '\n' ∧ IsLine l := by
  simp only [IsLine, List.mem_cons, not_or, ne_eq, eq_comm (b := c)]
  tauto

theorem IsLine.head?_ne (h : IsLine l) : l.head? ≠ some '\n' :=
  fun hl => h.2 (List.mem_of_mem_head? hl)

/-! ### One line end -/

/-- A lone `\r` closes a line. -/
theorem lines_return (h : s.head? ≠ some '\n') : lines ('\r' :: s) = [] :: lines s := by
  rw [lines]
  rintro s' rfl
  exact h rfl

/-- Text without line ends joins the line that it stands in front of. -/
theorem lines_append_line (hl : IsLine l) (h : l ≠ [] ∨ lines s ≠ []) :
    lines (l ++ s) = (l ++ (lines s).headD []) :: (lines s).tail := by
  induction l with
  | nil =>
      obtain ⟨first, rest, hs⟩ := List.exists_cons_of_ne_nil (h.resolve_left fun hnil => hnil rfl)
      rw [List.nil_append, hs]
      rfl
  | cons c l ih =>
      obtain ⟨hr, hn, hl⟩ := isLine_cons.mp hl
      rw [List.cons_append, lines_cons hr hn]
      by_cases hrest : l ≠ [] ∨ lines s ≠ []
      · rw [ih hl hrest]
        rfl
      · obtain ⟨rfl, hs⟩ : l = [] ∧ lines s = [] := by simpa using hrest
        rw [List.nil_append, hs]
        rfl

/-- A text without line ends is one line. -/
theorem lines_of_isLine (hl : IsLine l) : lines l = if l = [] then [] else [l] := by
  by_cases h : l = []
  · rw [h]
    rfl
  · have hline := lines_append_line (s := []) hl (.inl h)
    rw [List.append_nil] at hline
    rw [hline, if_neg h, lines_nil, List.headD_nil, List.append_nil, List.tail_nil]

theorem lines_eq_nil_iff : lines s = [] ↔ s = [] := by
  refine ⟨fun h => ?_, fun h => by rw [h, lines_nil]⟩
  induction s using lines.induct with
  | case1 => rfl
  | case2 | case3 | case4 | case5 | case6 => simp_all [lines]

/-- **Behind a line end the cut starts anew.**  A `\r` is one if no `\n` follows. -/
theorem lines_append
    (h : s.getLast? = some '\n' ∨ s.getLast? = some '\r' ∧ t.head? ≠ some '\n') :
    lines (s ++ t) = lines s ++ lines t := by
  induction s using lines.induct with
  | case1 => simp at h
  | case2 s ih =>
      rw [List.cons_append, List.cons_append, lines_return_newline, lines_return_newline]
      cases s with
      | nil => rfl
      | cons d s => rw [ih (by simpa using h), List.cons_append]
  | case3 s hs ih =>
      cases s with
      | nil =>
          have ht : t.head? ≠ some '\n' := by simpa using h
          rw [List.cons_append, List.nil_append, lines_return ht, lines_return (by simp)]
          rfl
      | cons d s =>
          have hd : ∀ u : List Char, (d :: u).head? ≠ some '\n' := fun u he =>
            hs s (by rw [Option.some.inj he])
          rw [List.cons_append, List.cons_append, lines_return (hd _), ← List.cons_append,
            ih (by simpa using h), lines_return (hd _), List.cons_append]
  | case4 s ih =>
      rw [List.cons_append, lines_newline, lines_newline]
      cases s with
      | nil => rfl
      | cons d s => rw [ih (by simpa using h), List.cons_append]
  | case5 c s _ hr hn hs ih =>
      rw [lines_eq_nil_iff.mp hs, List.getLast?_singleton, Option.some.injEq,
        Option.some.injEq] at h
      exact (h.elim hn fun h => hr h.1).elim
  | case6 c s _ hr hn first rest hs ih =>
      have hne : s ≠ [] := fun hnil => by simp [hnil] at hs
      obtain ⟨d, s, rfl⟩ := List.exists_cons_of_ne_nil hne
      rw [List.cons_append, lines_cons hr hn, ih (by simpa using h), lines_cons hr hn, hs]
      rfl

/-- A line in front of a line end, or of nothing, is a line by itself. -/
theorem lines_append_of_head? (hl : IsLine l) (hne : l ≠ [])
    (h : s.head? = none ∨ s.head? = some '\r' ∨ s.head? = some '\n') :
    lines (l ++ s) = l :: (lines s).tail := by
  have hfirst : (lines s).headD [] = [] := by
    cases s with
    | nil => rfl
    | cons c s =>
        obtain rfl | rfl : c = '\r' ∨ c = '\n' := by simpa using h
        · rw [lines.eq_def]
          split <;> simp_all
        · rw [lines_newline, List.headD_cons]
  rw [lines_append_line hl (.inl hne), hfirst, List.append_nil]

/-- All line ends are cut alike. -/
theorem lines_unifyLineEnds (s : List Char) : lines (unifyLineEnds s) = lines s := by
  induction s using unifyLineEnds.induct with
  | case1 => rfl
  | case2 s ih => rw [unifyLineEnds, lines_newline, lines_return_newline, ih]
  | case3 s hs ih => rw [unifyLineEnds, lines_newline, lines, ih] <;> exact hs
  | case4 c s hreturn hr ih =>
      rw [unifyLineEnds]
      · by_cases hn : c = '\n'
        · rw [hn, lines_newline, lines_newline, ih]
        · rw [lines_cons hr hn, lines_cons hr hn, ih]
      · exact hreturn
      · exact hr

/-! ### The cut in four steps -/

/-- The text with `\n` for every `\r\n`. -/
def joinPairs : List Char → List Char
  | []                => []
  | '\r' :: '\n' :: s => '\n' :: joinPairs s
  | c :: s            => c :: joinPairs s

/-- The text with `\n` for every `\r`. -/
def replaceReturns (s : List Char) : List Char := s.map fun c => if c = '\r' then '\n' else c

/-- The pieces without the last one, if that is empty. -/
def dropEmptyLast (pieces : List (List Char)) : List (List Char) :=
  if pieces.getLast? = some [] then pieces.dropLast else pieces

theorem unifyLineEnds_eq (s : List Char) : unifyLineEnds s = replaceReturns (joinPairs s) := by
  induction s using unifyLineEnds.induct with
  | case1 => rfl
  | case2 s ih =>
      rw [unifyLineEnds, joinPairs, ih]
      rfl
  | case3 s hs ih =>
      rw [unifyLineEnds, joinPairs, ih]
      · rfl
      · rintro s' - rfl
        exact hs s' rfl
      · exact hs
  | case4 c s hpair hr ih =>
      rw [unifyLineEnds, joinPairs, ih, replaceReturns, replaceReturns, List.map_cons, if_neg hr]
      · exact hpair
      · exact hpair
      · exact hr

theorem dropEmptyLast_cons {p : List Char} {pieces : List (List Char)} (h : pieces ≠ []) :
    dropEmptyLast (p :: pieces) = p :: dropEmptyLast pieces := by
  rw [dropEmptyLast, dropEmptyLast, List.getLast?_cons_of_ne_nil h, List.dropLast_cons_of_ne_nil h]
  split <;> rfl

/-- A text without `\r` is cut at `\n`. -/
theorem lines_of_return_not_mem (h : '\r' ∉ s) : lines s = dropEmptyLast (s.splitOn '\n') := by
  induction s with
  | nil => rfl
  | cons c s ih =>
      rw [List.mem_cons, not_or] at h
      have ih := ih h.2
      rw [List.splitOn_cons_eq_if_modifyHead]
      by_cases hn : c = '\n'
      · subst hn
        rw [lines_newline, ih]
        exact (dropEmptyLast_cons (List.splitOn_ne_nil '\n' s)).symm
      · obtain ⟨first, rest, hsplit⟩ := List.exists_cons_of_ne_nil (List.splitOn_ne_nil '\n' s)
        rw [if_neg (by simpa using hn), lines_cons (Ne.symm h.1) hn, ih, hsplit, List.modifyHead_cons]
        by_cases hrest : rest = []
        · subst hrest
          by_cases hfirst : first = [] <;> simp [dropEmptyLast, hfirst]
        · rw [dropEmptyLast_cons hrest, dropEmptyLast_cons hrest]
          rfl

/-- **A text is cut in four steps**: every `\r\n` becomes `\n`, then every `\r`; the text is cut at
`\n`, and an empty piece at the end is dropped. -/
theorem lines_eq_dropEmptyLast (s : List Char) :
    lines s = dropEmptyLast ((replaceReturns (joinPairs s)).splitOn '\n') := by
  have hreturn : '\r' ∉ replaceReturns (joinPairs s) := by
    rw [replaceReturns, List.mem_map]
    rintro ⟨c, -, hc⟩
    split at hc
    · cases hc
    · rename_i hr
      exact hr hc
  rw [← lines_of_return_not_mem hreturn, ← unifyLineEnds_eq, lines_unifyLineEnds]

/-! ### Texts written line by line -/

/-- What may end a line. -/
inductive LineEnd where
  | lineFeed
  | returnLineFeed
  | carriageReturn
deriving DecidableEq, Repr

/-- The characters of a line end. -/
def LineEnd.chars : LineEnd → List Char
  | lineFeed       => ['\n']
  | returnLineFeed => ['\r', '\n']
  | carriageReturn => ['\r']

/-- A text written line by line. -/
structure Writing where
  /-- The lines that have an end behind them. -/
  ended : List (List Char × LineEnd)
  /-- What stands behind the last line end; it is a line if it is not empty. -/
  last : List Char := []
  isLine : ∀ l ∈ ended, IsLine l.1
  isLine_last : IsLine last
  /-- No `\r` is followed by an empty line that ends in `\n`: the two would be one line end. -/
  apart : ended.IsChain fun a b => ¬ (a.2 = .carriageReturn ∧ b = ([], .lineFeed))

/-- The text of lines with their ends, and of what stands behind them. -/
def textOf (ended : List (List Char × LineEnd)) (last : List Char) : List Char :=
  (ended.flatMap fun l => l.1 ++ l.2.chars) ++ last

namespace Writing

/-- The lines that were written. -/
def lines (w : Writing) : List (List Char) :=
  w.ended.map Prod.fst ++ if w.last = [] then [] else [w.last]

/-- The text that was written. -/
def text (w : Writing) : List Char := textOf w.ended w.last

end Writing

theorem lines_chars_append (e : LineEnd) (h : e = .carriageReturn → s.head? ≠ some '\n') :
    lines (e.chars ++ s) = [] :: lines s := by
  cases e with
  | lineFeed => exact lines_newline s
  | returnLineFeed => exact lines_return_newline s
  | carriageReturn => exact lines_return (h rfl)

theorem textOf_cons (l : List Char) (e : LineEnd) (ended : List (List Char × LineEnd)) :
    textOf ((l, e) :: ended) t = l ++ (e.chars ++ textOf ended t) := by
  simp only [textOf, List.flatMap_cons, List.append_assoc]

/-- The text starts with `\n` only if an empty line comes first that ends in it. -/
theorem head?_textOf {ended : List (List Char × LineEnd)} (hended : ∀ l ∈ ended, IsLine l.1)
    (ht : IsLine t) (h : ended.head? ≠ some ([], .lineFeed)) :
    (textOf ended t).head? ≠ some '\n' := by
  cases ended with
  | nil => exact ht.head?_ne
  | cons x ended =>
      obtain ⟨l, e⟩ := x
      have hl : IsLine l := hended (l, e) List.mem_cons_self
      rw [textOf_cons]
      cases l with
      | nil => cases e <;> simp_all [LineEnd.chars]
      | cons c l => exact hl.head?_ne

/-- **The cut undoes the writing.** -/
theorem lines_textOf {ended : List (List Char × LineEnd)} (hended : ∀ l ∈ ended, IsLine l.1)
    (ht : IsLine t)
    (hapart : ended.IsChain fun a b => ¬ (a.2 = .carriageReturn ∧ b = ([], .lineFeed))) :
    lines (textOf ended t) = ended.map Prod.fst ++ if t = [] then [] else [t] := by
  induction ended with
  | nil => exact lines_of_isLine ht
  | cons x ended ih =>
      obtain ⟨l, e⟩ := x
      obtain ⟨hl, hended⟩ := List.forall_mem_cons.mp hended
      have hnext : e = .carriageReturn → (textOf ended t).head? ≠ some '\n' := fun he =>
        head?_textOf hended ht fun hhead => by
          obtain ⟨rest, rfl⟩ := List.head?_eq_some_iff.mp hhead
          exact (List.isChain_cons_cons.mp hapart).1 ⟨he, rfl⟩
      have hclosed := lines_chars_append e hnext
      rw [textOf_cons, lines_append_line hl (.inr (by rw [hclosed]; exact List.cons_ne_nil _ _)),
        hclosed, ih hended hapart.tail]
      simp

theorem Writing.lines_text (w : Writing) : Text.lines w.text = w.lines :=
  lines_textOf w.isLine w.isLine_last w.apart

end ThreatModel.Text
