import ThreatModel.Diagram.Basic
import ThreatModel.Proofs.Diagram.Token
import ThreatModel.Proofs.Text.Codes

/-!
# Edge labels — free texts in markup

The label of an edge shows names of callees and subjects of flows, which are free texts, between
tags, with slashes and line breaks that may occur in these texts as well.

No character is written as the beginning of another one (`eq_of_escapeHtmlChar_prefix`), so a text
can be read back from how it is escaped, and no bracket is left in it.  So the brackets of a label
are those of its tags, and a text that starts at a tag can be cut into its tags in one way only
(`join_text_inj`).  A slash stands behind every part but the last of its line, and so the tags tell
where a part and where a line ends (`labelTags_inj`).

* `htmlLabel_unforgeable`: no two labels are written in the same way, and a label is one token.
-/

namespace ThreatModel.Dot

/-! ### Escaped texts -/

/-- There is no bracket of a tag. -/
def Unbracketed (s : List Char) : Prop := ∀ c ∈ s, c ≠ '<' ∧ c ≠ '>'

instance : DecidablePred Unbracketed := fun s => List.decidableBAll _ s

/-- The characters that do not stand for themselves, and how they are written. -/
def entities : List (Char × String) :=
  [('&', "&amp;"), ('<', "&lt;"), ('>', "&gt;"), ('\'', "&#39;"), ('"', "&#34;")]

theorem escapeHtmlChar_cases (c : Char) :
    (c, escapeHtmlChar c) ∈ entities ∨
      (c ≠ '&' ∧ c ≠ '<' ∧ c ≠ '>') ∧ escapeHtmlChar c = String.ofList [c] := by
  unfold escapeHtmlChar
  split
  case h_6 => exact .inr ⟨⟨by assumption, by assumption, by assumption⟩, rfl⟩
  all_goals exact .inl (by decide)

theorem head?_entity : ∀ e ∈ entities, e.2.toList.head? = some '&' := by decide

theorem unbracketed_entity : ∀ e ∈ entities, Unbracketed e.2.toList := by decide

theorem entity_eq_of_prefix : ∀ e ∈ entities, ∀ e' ∈ entities,
    e.2.toList <+: e'.2.toList → e.1 = e'.1 := by decide

section
variable {c d : Char}

theorem escapeHtmlChar_ne_nil (c : Char) : (escapeHtmlChar c).toList ≠ [] := by
  rcases escapeHtmlChar_cases c with hc | ⟨-, hc⟩
  · intro hnil
    have hhead := head?_entity _ hc
    rw [hnil] at hhead
    cases hhead
  · rw [hc, String.toList_ofList]
    exact List.cons_ne_nil c []

/-- No character is written as the beginning of another one. -/
theorem eq_of_escapeHtmlChar_prefix (h : (escapeHtmlChar c).toList <+: (escapeHtmlChar d).toList) :
    c = d := by
  have hhead : (escapeHtmlChar c).toList.head? = (escapeHtmlChar d).toList.head? := by
    obtain ⟨s, hs⟩ := h
    rw [← hs, List.head?_append_of_ne_nil _ (escapeHtmlChar_ne_nil c)]
  rcases escapeHtmlChar_cases c with hc | ⟨⟨hc, -⟩, hcself⟩
  · rcases escapeHtmlChar_cases d with hd | ⟨⟨hd, -⟩, hdself⟩
    · exact entity_eq_of_prefix _ hc _ hd h
    · rw [head?_entity _ hc, hdself, String.toList_ofList] at hhead
      exact absurd (Option.some.inj hhead).symm hd
  · rcases escapeHtmlChar_cases d with hd | ⟨-, hdself⟩
    · rw [head?_entity _ hd, hcself, String.toList_ofList] at hhead
      exact absurd (Option.some.inj hhead) hc
    · rw [hcself, hdself, String.toList_ofList, String.toList_ofList] at hhead
      exact Option.some.inj hhead

theorem toList_escapeHtml (s : String) :
    (escapeHtml s).toList = s.toList.flatMap fun c => (escapeHtmlChar c).toList := by
  rw [escapeHtml, String.toList_join, List.flatMap_map]

/-- **A text can be read back from how it is escaped.** -/
theorem escapeHtml_inj {s t : String} (h : escapeHtml s = escapeHtml t) : s = t := by
  rw [← String.toList_inj, toList_escapeHtml, toList_escapeHtml] at h
  exact String.toList_inj.mp
    (flatMap_inj_of_apart escapeHtmlChar_ne_nil (fun _ _ => eq_of_escapeHtmlChar_prefix) h)

/-- No bracket is left in it. -/
theorem unbracketed_escapeHtml (s : String) : Unbracketed (escapeHtml s).toList := by
  intro d hd
  rw [toList_escapeHtml, List.mem_flatMap] at hd
  obtain ⟨c, -, hd⟩ := hd
  rcases escapeHtmlChar_cases c with hc | ⟨⟨-, hc⟩, hself⟩
  · exact unbracketed_entity _ hc d hd
  · rw [hself, String.toList_ofList, List.mem_singleton] at hd
    exact hd ▸ hc

/-! ### Brackets -/

theorem readHtml_append {u : List Char} (h : Unbracketed u) (depth : Nat)
    (s : List Char) : readHtml depth (u ++ s) = before u (readHtml depth s) := by
  induction u with
  | nil => exact (before_nil _).symm
  | cons c u ih =>
      obtain ⟨hc, hu⟩ := List.forall_mem_cons.mp h
      rw [List.cons_append, readHtml, ih hu, before_before]
      · rfl
      · exact hc.1
      · exact fun _ => hc.2
      · exact fun _ _ => hc.2

end

end ThreatModel.Dot

namespace ThreatModel.Diagram

/-! ### Tags -/

/-- A tag, by what stands between its brackets, and the text behind it. -/
structure Tag where
  name : String
  behind : String
deriving DecidableEq, Repr

namespace Tag

/-- The tag as it is written. -/
def text (t : Tag) : String := "<" ++ t.name ++ ">" ++ t.behind

/-- There are no brackets but those around its name. -/
structure IsPlain (t : Tag) : Prop where
  name : Dot.Unbracketed t.name.toList
  behind : Dot.Unbracketed t.behind.toList

theorem toList_text (t : Tag) :
    t.text.toList = '<' :: (t.name.toList ++ '>' :: t.behind.toList) := by
  simp [text]

end Tag

/-- Tags as they are written. -/
def tagsText (ts : List Tag) : String := String.join (ts.map Tag.text)

section
variable {ts ts' : List Tag}

theorem toList_tagsText_cons (t : Tag) (ts : List Tag) : (tagsText (t :: ts)).toList =
    '<' :: (t.name.toList ++ '>' :: (t.behind.toList ++ (tagsText ts).toList)) := by
  rw [tagsText, List.map_cons, String.join_cons, String.toList_append, Tag.toList_text,
    List.cons_append, List.append_assoc, List.cons_append]
  rfl

/-- The text in front of the first tag ends at its bracket. -/
theorem append_tagsText_inj {u u' : List Char} (hu : '<' ∉ u) (hu' : '<' ∉ u')
    (hts : ∀ t ∈ ts, t.IsPlain) (hts' : ∀ t ∈ ts', t.IsPlain)
    (h : u ++ (tagsText ts).toList = u' ++ (tagsText ts').toList) : u = u' ∧ ts = ts' := by
  induction ts generalizing u u' ts' with
  | nil =>
      cases ts' with
      | nil => exact ⟨List.append_cancel_right h, rfl⟩
      | cons t' ts' =>
          rw [toList_tagsText_cons] at h
          refine absurd ?_ hu
          rw [← List.append_nil u]
          exact h ▸ List.mem_append_right u' List.mem_cons_self
  | cons t ts ih =>
      rw [toList_tagsText_cons] at h
      cases ts' with
      | nil =>
          refine absurd ?_ hu'
          rw [← List.append_nil u']
          exact h ▸ List.mem_append_right u List.mem_cons_self
      | cons t' ts' =>
          obtain ⟨ht, hts⟩ := List.forall_mem_cons.mp hts
          obtain ⟨ht', hts'⟩ := List.forall_mem_cons.mp hts'
          rw [toList_tagsText_cons] at h
          obtain ⟨rfl, hnames⟩ := append_cons_inj hu hu' h
          obtain ⟨hname, hrest⟩ := append_cons_inj (fun hc => (ht.name _ hc).2 rfl)
            (fun hc => (ht'.name _ hc).2 rfl) hnames
          obtain ⟨hbehind, rfl⟩ := ih (fun hc => (ht.behind _ hc).1 rfl)
            (fun hc => (ht'.behind _ hc).1 rfl) hts hts' hrest
          obtain ⟨name, behind⟩ := t
          obtain rfl := String.toList_inj.mp hname
          obtain rfl := String.toList_inj.mp hbehind
          exact ⟨rfl, rfl⟩

/-- **A text is cut into tags in one way only.** -/
theorem tagsText_inj (hts : ∀ t ∈ ts, t.IsPlain) (hts' : ∀ t ∈ ts', t.IsPlain)
    (h : tagsText ts = tagsText ts') : ts = ts' :=
  (append_tagsText_inj List.not_mem_nil List.not_mem_nil hts hts' (congrArg String.toList h)).2

/-- The brackets of tags are closed where they end. -/
theorem readHtml_tagsText (hts : ∀ t ∈ ts, t.IsPlain) (rest : List Char) :
    Dot.readHtml 0 ((tagsText ts).toList ++ '>' :: rest) = some ((tagsText ts).toList, rest) := by
  induction ts with
  | nil => rfl
  | cons t ts ih =>
      obtain ⟨ht, hts⟩ := List.forall_mem_cons.mp hts
      rw [toList_tagsText_cons, List.cons_append, List.append_assoc, List.cons_append,
        List.append_assoc, Dot.readHtml, Dot.readHtml_append ht.name, Dot.readHtml,
        Dot.readHtml_append ht.behind, ih hts]
      rfl

end

/-! ### The tags of a label -/

/-- The tags of a part, with a text behind them. -/
def partTags (p : LabelPart) (behind : String) : List Tag :=
  [⟨"font color=\"" ++ Dot.escapeHtml p.color ++ "\"", Dot.escapeHtml p.text⟩, ⟨"/font", behind⟩]

/-- The tags of a line, with slashes between its parts. -/
def lineTags : List LabelPart → List Tag
  | []            => []
  | [p]           => partTags p ""
  | p :: q :: line => partTags p " / " ++ lineTags (q :: line)

/-- The tags of a label, with breaks between its lines. -/
def labelTags : Label → List Tag
  | []                 => []
  | [line]             => lineTags line
  | line :: next :: rest => lineTags line ++ ⟨"br/", "\n"⟩ :: labelTags (next :: rest)

theorem tagsText_append (ts ts' : List Tag) :
    tagsText (ts ++ ts') = tagsText ts ++ tagsText ts' := by
  rw [tagsText, List.map_append, String.join_append]
  rfl

theorem tagsText_partTags (p : LabelPart) (behind : String) :
    tagsText (partTags p behind) = htmlPart p ++ behind := by
  have hpart : htmlPart p = "<font color=\"" ++ Dot.escapeHtml p.color ++ "\">" ++
      Dot.escapeHtml p.text ++ "</font>" := rfl
  rw [← String.toList_inj, hpart]
  simp [tagsText, partTags, Tag.text]

theorem tagsText_lineTags (line : List LabelPart) :
    tagsText (lineTags line) = String.intercalate " / " (line.map htmlPart) := by
  fun_induction lineTags line with
  | case1 => rfl
  | case2 p => rw [tagsText_partTags, String.append_empty, List.map_singleton,
      String.intercalate_singleton]
  | case3 p q line ih =>
      rw [tagsText_append, tagsText_partTags, ih, List.map_cons, List.map_cons, List.map_cons,
        String.intercalate_cons_cons]

/-- A label is written as its tags, in brackets. -/
theorem htmlLabel_eq (l : Label) : htmlLabel l = "<" ++ tagsText (labelTags l) ++ ">" := by
  have hlines : tagsText (labelTags l) = String.intercalate "<br/>\n"
      (l.map fun line => String.intercalate " / " (line.map htmlPart)) := by
    fun_induction labelTags l with
    | case1 => rfl
    | case2 line => rw [tagsText_lineTags, List.map_singleton, String.intercalate_singleton]
    | case3 line next rest ih =>
        rw [tagsText_append, tagsText_lineTags, ← List.singleton_append, tagsText_append, ih,
          List.map_cons, List.map_cons, List.map_cons, String.intercalate_cons_cons,
          ← String.append_assoc]
        rfl
  rw [htmlLabel, hlines]

theorem isPlain_partTags {p : LabelPart} {behind : String}
    (h : Dot.Unbracketed behind.toList) : ∀ t ∈ partTags p behind, t.IsPlain := by
  have hfont : Dot.Unbracketed ("font color=\"" ++ Dot.escapeHtml p.color ++ "\"").toList := by
    have hopen : Dot.Unbracketed "font color=\"".toList := by decide
    have hclose : Dot.Unbracketed "\"".toList := by decide
    rw [String.toList_append, String.toList_append]
    exact List.forall_mem_append.mpr
      ⟨List.forall_mem_append.mpr ⟨hopen, Dot.unbracketed_escapeHtml p.color⟩, hclose⟩
  have hend : Dot.Unbracketed "/font".toList := by decide
  exact List.forall_mem_cons.mpr ⟨⟨hfont, Dot.unbracketed_escapeHtml p.text⟩,
    List.forall_mem_singleton.mpr ⟨hend, h⟩⟩

theorem isPlain_lineTags (line : List LabelPart) : ∀ t ∈ lineTags line, t.IsPlain := by
  fun_induction lineTags line with
  | case1 => exact List.forall_mem_nil _
  | case2 p => exact isPlain_partTags (by decide)
  | case3 p q line ih => exact List.forall_mem_append.mpr ⟨isPlain_partTags (by decide), ih⟩

theorem isPlain_labelTags (l : Label) : ∀ t ∈ labelTags l, t.IsPlain := by
  fun_induction labelTags l with
  | case1 => exact List.forall_mem_nil _
  | case2 line => exact isPlain_lineTags line
  | case3 line next rest ih =>
      have hbreak : Tag.IsPlain ⟨"br/", "\n"⟩ := ⟨by decide, by decide⟩
      exact List.forall_mem_append.mpr
        ⟨isPlain_lineTags line, List.forall_mem_cons.mpr ⟨hbreak, ih⟩⟩

/-! ### Reading the tags -/

theorem partTags_append_inj {p p' : LabelPart} {behind behind' : String} {ts ts' : List Tag}
    (h : partTags p behind ++ ts = partTags p' behind' ++ ts') :
    p = p' ∧ behind = behind' ∧ ts = ts' := by
  simp only [partTags, List.cons_append, List.nil_append, List.cons.injEq, Tag.mk.injEq,
    String.append_right_inj, String.append_left_inj, true_and] at h
  obtain ⟨⟨hcolor, htext⟩, hbehind, hts⟩ := h
  have hp : p = p' := by
    cases p
    cases p'
    exact congr (congrArg LabelPart.mk (Dot.escapeHtml_inj htext)) (Dot.escapeHtml_inj hcolor)
  exact ⟨hp, hbehind, hts⟩

/-- A line ends at the first part with no slash behind it. -/
theorem lineTags_append_inj {line line' : List LabelPart} (hline : line ≠ []) (hline' : line' ≠ [])
    {ts ts' : List Tag} (h : lineTags line ++ ts = lineTags line' ++ ts') :
    line = line' ∧ ts = ts' := by
  fun_induction lineTags line generalizing line' with
  | case1 => exact absurd rfl hline
  | case2 p =>
      match line', hline' with
      | [p'], _ =>
          obtain ⟨rfl, -, hts⟩ := partTags_append_inj h
          exact ⟨rfl, hts⟩
      | p' :: q' :: line', _ =>
          rw [lineTags, List.append_assoc] at h
          exact absurd (partTags_append_inj h).2.1 (by decide)
  | case3 p q line ih =>
      rw [List.append_assoc] at h
      match line', hline' with
      | [p'], _ => exact absurd (partTags_append_inj h).2.1 (by decide)
      | p' :: q' :: line', _ =>
          rw [lineTags, List.append_assoc] at h
          obtain ⟨rfl, -, h⟩ := partTags_append_inj h
          obtain ⟨hrest, hts⟩ := ih (List.cons_ne_nil _ _) (List.cons_ne_nil _ _) h
          exact ⟨congrArg (p :: ·) hrest, hts⟩

theorem lineTags_ne_nil {line : List LabelPart} (h : line ≠ []) : lineTags line ≠ [] := by
  fun_cases lineTags line with
  | case1 => exact absurd rfl h
  | case2 p => exact List.cons_ne_nil _ _
  | case3 p q line => exact List.cons_ne_nil _ _

/-- **A label can be read back from its tags**, unless it has empty lines. -/
theorem labelTags_inj {l l' : Label} (hl : ∀ line ∈ l, line ≠ []) (hl' : ∀ line ∈ l', line ≠ [])
    (h : labelTags l = labelTags l') : l = l' := by
  fun_induction labelTags l generalizing l' with
  | case1 =>
      match l' with
      | [] => rfl
      | [line'] => exact absurd h.symm (lineTags_ne_nil (hl' _ List.mem_cons_self))
      | line' :: next' :: rest' =>
          rw [labelTags] at h
          exact absurd h.symm (List.append_ne_nil_of_right_ne_nil _ (List.cons_ne_nil _ _))
  | case2 line =>
      have hline := hl line List.mem_cons_self
      match l' with
      | [] => exact absurd h (lineTags_ne_nil hline)
      | [line'] =>
          rw [labelTags, ← List.append_nil (lineTags line), ← List.append_nil (lineTags line')] at h
          rw [(lineTags_append_inj hline (hl' _ List.mem_cons_self) h).1]
      | line' :: next' :: rest' =>
          rw [labelTags, ← List.append_nil (lineTags line)] at h
          cases (lineTags_append_inj hline (hl' _ List.mem_cons_self) h).2
  | case3 line next rest ih =>
      obtain ⟨hline, hrest⟩ := List.forall_mem_cons.mp hl
      match l' with
      | [] => exact absurd h (List.append_ne_nil_of_right_ne_nil _ (List.cons_ne_nil _ _))
      | [line'] =>
          rw [labelTags, ← List.append_nil (lineTags line')] at h
          cases (lineTags_append_inj hline (hl' _ List.mem_cons_self) h).2
      | line' :: next' :: rest' =>
          obtain ⟨hline', hrest'⟩ := List.forall_mem_cons.mp hl'
          rw [labelTags] at h
          obtain ⟨rfl, hbehind⟩ := lineTags_append_inj hline hline' h
          rw [ih hrest hrest' (List.cons.inj hbehind).2]

/-! ### Labels -/

/-- A label is enclosed in brackets. -/
theorem toList_htmlLabel (l : Label) :
    (htmlLabel l).toList = '<' :: (tagsText (labelTags l)).toList ++ ['>'] := by
  rw [htmlLabel_eq, String.toList_append, String.toList_append]
  rfl

theorem htmlLabel_inj {l l' : Label} (hl : ∀ line ∈ l, line ≠ []) (hl' : ∀ line ∈ l', line ≠ [])
    (h : htmlLabel l = htmlLabel l') : l = l' := by
  rw [htmlLabel_eq, htmlLabel_eq, String.append_left_inj, String.append_right_inj] at h
  exact labelTags_inj hl hl' (tagsText_inj (isPlain_labelTags l) (isPlain_labelTags l') h)

/-- **Labels cannot be forged.**  Two labels of lines that are not empty are written in the same way
only if they are the same.  A label is written as its tags, `font` around each part and `br` behind
each line but the last, and it can be cut into no others; there is no bracket but those around it
and those of its tags.

So it stands as it is where a value is written, and is read up to its last bracket, wherever it
stands. -/
theorem htmlLabel_unforgeable :
    (∀ l l' : Label, (∀ line ∈ l, line ≠ []) → (∀ line ∈ l', line ≠ []) →
      (htmlLabel l = htmlLabel l' ↔ l = l')) ∧
    ∀ l : Label,
      (∀ ts : List Tag, (∀ t ∈ ts, t.IsPlain) ∧ htmlLabel l = "<" ++ tagsText ts ++ ">" ↔
        ts = labelTags l) ∧
      Dot.token (htmlLabel l) = htmlLabel l ∧
      ∀ rest, Dot.read ((Dot.token (htmlLabel l)).toList ++ rest) =
        some (.html (tagsText (labelTags l)).toList, rest) := by
  refine ⟨fun l l' hl hl' => ⟨htmlLabel_inj hl hl', congrArg htmlLabel⟩,
    fun l => ⟨fun ts => ?_, ?_⟩⟩
  · constructor
    · rintro ⟨hts, h⟩
      rw [htmlLabel_eq, String.append_left_inj, String.append_right_inj] at h
      exact (tagsText_inj (isPlain_labelTags l) hts h).symm
    · rintro rfl
      exact ⟨isPlain_labelTags l, htmlLabel_eq l⟩
  · have htoken : Dot.token (htmlLabel l) = htmlLabel l :=
      Dot.token_of_isEnclosed ⟨_, toList_htmlLabel l⟩
    refine ⟨htoken, fun rest => ?_⟩
    rw [htoken, toList_htmlLabel, List.cons_append, List.cons_append, List.append_assoc,
      List.singleton_append, Dot.read, readHtml_tagsText (isPlain_labelTags l)]
    rfl

/-- A callee whose name looks like the end of one part and the start of another. -/
theorem htmlLabel_unforgeable_markup :
    let l : Label := [[⟨"a</font> / <font color=\"red\">b", "red"⟩]]
    let l' : Label := [[⟨"a", "red"⟩, ⟨"b", "red"⟩]]
    (∀ line ∈ l, line ≠ []) ∧ (∀ line ∈ l', line ≠ []) ∧ htmlLabel l ≠ htmlLabel l' := by
  intro l l'
  have hl : ∀ line ∈ l, line ≠ [] := by decide
  have hl' : ∀ line ∈ l', line ≠ [] := by decide
  exact ⟨hl, hl', fun h => absurd ((htmlLabel_unforgeable.1 l l' hl hl').mp h) (by decide)⟩

/-- Lines and parts of the same texts. -/
example : htmlLabel [[⟨"a", "red"⟩, ⟨"b", "red"⟩], [⟨"R&D", "black"⟩]] =
    "<<font color=\"red\">a</font> / <font color=\"red\">b</font><br/>\n" ++
      "<font color=\"black\">R&amp;D</font>>" := by decide +kernel

end ThreatModel.Diagram
