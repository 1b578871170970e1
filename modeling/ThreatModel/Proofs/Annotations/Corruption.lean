import ThreatModel.Annotations.Files
import ThreatModel.Proofs.Text.Lines
import ThreatModel.Proofs.Text.Utf8

/-!
# Corruption — what is not UTF-8 harms no line but its own

A file is opened as a text, in which ill-formed bytes are U+FFFD and every line end is `\n`; the
reader sees its lines (`linesOfBytes`).  They can be told from the bytes: the lines start anew
behind every line end (`linesOfBytes_append`), and the bytes between two line ends are a line by
themselves, whatever they are (`linesOfBytes_line`).

So bytes that are replaced between line ends change their own line only, and leave the others their
numbers.  Text in UTF-8 is read as it is.
-/

namespace ThreatModel.Annotations.Reader

/-- The text as which bytes are opened. -/
def textOfBytes (bytes : List UInt8) : String :=
  String.ofList (Text.unifyLineEnds (Text.decodeLossy bytes))

/-- The lines that are read of bytes. -/
def linesOfBytes (bytes : List UInt8) : List String := linesOf (textOfBytes bytes)

variable {a b x : List UInt8}

theorem linesOf_unifyLineEnds (s : List Char) :
    linesOf (String.ofList (Text.unifyLineEnds s)) = linesOf (String.ofList s) := by
  rw [linesOf, String.toList_ofList, Text.lines_unifyLineEnds, linesOf, String.toList_ofList]

theorem linesOfBytes_eq (bytes : List UInt8) :
    linesOfBytes bytes = (Text.lines (Text.decodeLossy bytes)).map String.ofList := by
  rw [linesOfBytes, textOfBytes, linesOf_unifyLineEnds, linesOf, String.toList_ofList]

/-! ### Lines of bytes -/

theorem linesOfBytes_nil : linesOfBytes [] = [] := by
  rw [linesOfBytes_eq, Text.decodeLossy_nil, Text.lines_nil, List.map_nil]

/-- **Behind a line end the lines start anew.** -/
theorem linesOfBytes_append
    (h : a.getLast? = some 0x0A ∨ a.getLast? = some 0x0D ∧ b.head? ≠ some 0x0A) :
    linesOfBytes (a ++ b) = linesOfBytes a ++ linesOfBytes b := by
  have hdecoded : Text.decodeLossy (a ++ b) = Text.decodeLossy a ++ Text.decodeLossy b :=
    h.elim (Text.decodeLossy_append_of_getLast? · (by decide)) fun h =>
      Text.decodeLossy_append_of_getLast? h.1 (by decide)
  rw [linesOfBytes_eq, linesOfBytes_eq, linesOfBytes_eq, hdecoded, ← List.map_append]
  refine congrArg _ (Text.lines_append (h.imp (Text.getLast?_decodeLossy · (by decide)) ?_))
  rintro ⟨ha, hb⟩
  exact ⟨Text.getLast?_decodeLossy ha (by decide), fun hhead =>
    hb (Text.head?_of_head?_decodeLossy hhead (by decide) (by decide))⟩

/-- **Bytes in front of a line end, or of nothing, are a line by themselves.** -/
theorem linesOfBytes_line (hx : x ≠ []) (hr : 0x0D ∉ x) (hn : 0x0A ∉ x)
    (hb : ∀ c ∈ b.head?, c = 0x0D ∨ c = 0x0A) :
    linesOfBytes (x ++ b) = String.ofList (Text.decodeLossy x) :: (linesOfBytes b).tail := by
  have hascii : ∀ c ∈ b.head?, c < 0x80 := fun c hc => by
    obtain rfl | rfl := hb c hc <;> decide
  have hhead : (Text.decodeLossy b).head? = none ∨ (Text.decodeLossy b).head? = some '\r' ∨
      (Text.decodeLossy b).head? = some '\n' := by
    cases b with
    | nil => exact .inl (congrArg List.head? Text.decodeLossy_nil)
    | cons c b =>
        rw [Text.decodeLossy_cons (hascii c rfl), List.head?_cons]
        obtain rfl | rfl := hb c rfl
        · exact .inr (.inl rfl)
        · exact .inr (.inr rfl)
  rw [linesOfBytes_eq, linesOfBytes_eq, Text.decodeLossy_append hascii,
    Text.lines_append_of_head? (Text.isLine_decodeLossy hr hn) (Text.decodeLossy_ne_nil hx) hhead,
    List.map_cons, List.map_tail]

/-! ### Sources in files -/

variable {r : Reader} {t : FileTree}

/-- Sources are read by their names and lines. -/
theorem readSources_congr {facts : Facts} {sources sources' : List (String × String)}
    (h : sources.map (fun s => (s.1, linesOf s.2)) = sources'.map fun s => (s.1, linesOf s.2)) :
    r.readSources facts sources = r.readSources facts sources' := by
  induction sources generalizing facts sources' with
  | nil =>
      obtain rfl := List.map_eq_nil_iff.mp h.symm
      rfl
  | cons s sources ih =>
      obtain ⟨s', sources', rfl⟩ := List.exists_cons_of_ne_nil (l := sources') (by
        rintro rfl
        cases h)
      obtain ⟨hs, hsources⟩ := List.cons.inj h
      obtain ⟨hfile, hlines⟩ := Prod.mk.inj hs
      have hsource : r.readSource facts s.1 s.2 = r.readSource facts s'.1 s'.2 := by
        rw [readSource, readSource, hlines, show s.1 = s'.1 from hfile]
      simp only [readSources, hsource, ih hsources]

theorem sourcesOf_eq {files : List (String × List UInt8)}
    (h : ∀ f ∈ files, t.read f.1 = .ok f.2) : sourcesOf t (files.map Prod.fst) =
      .ok (files.map fun f => (f.1, String.ofList (Text.decodeLossy f.2))) := by
  induction files with
  | nil => rfl
  | cons f files ih =>
      obtain ⟨hf, hfiles⟩ := List.forall_mem_cons.mp h
      have hrest := ih hfiles
      rw [sourcesOf] at hrest ⊢
      rw [List.map_cons, List.mapM_cons, hrest, hf]
      rfl

/-- Files are read as the texts as which they are opened. -/
theorem readFiles_eq {files : List (String × List UInt8)}
    (h : ∀ f ∈ files, t.read f.1 = .ok f.2) : r.readFiles t (files.map Prod.fst) =
      .ok (r.readSources .empty (files.map fun f => (f.1, textOfBytes f.2))) := by
  rw [readFiles, sourcesOf_eq h]
  refine congrArg Except.ok (readSources_congr ?_)
  rw [List.map_map, List.map_map]
  exact List.map_congr_left fun f _ => congrArg (f.1, ·) (linesOf_unifyLineEnds _).symm

theorem linesOf_textOfBytes_encode (text : String) :
    linesOf (textOfBytes (Text.encode text.toList)) = linesOf text := by
  rw [textOfBytes, Text.decodeLossy_encode, linesOf_unifyLineEnds, String.ofList_toList]

/-- **Corrupt bytes stay on their line.**  The lines start anew behind every line feed.  Bytes `x`
that stand between line ends, or the ends of the file, are one line, and the lines before and behind
it are the same whatever `x` is.  Files are read as the texts as which they are opened, and files
whose bytes are those of a text are read as that text. -/
theorem corruption_stays_on_its_line :
    (∀ a b : List UInt8,
        linesOfBytes (a ++ 0x0A :: b) = linesOfBytes (a ++ [0x0A]) ++ linesOfBytes b) ∧
      (∀ a x b : List UInt8, (∀ c ∈ a.getLast?, c = 0x0D ∨ c = 0x0A) →
        (∀ c ∈ b.head?, c = 0x0D ∨ c = 0x0A) → x ≠ [] → 0x0D ∉ x → 0x0A ∉ x →
          linesOfBytes (a ++ x ++ b) =
            linesOfBytes a ++ String.ofList (Text.decodeLossy x) :: (linesOfBytes b).tail) ∧
      (∀ (r : Reader) (t : FileTree) (files : List (String × List UInt8)),
        (∀ f ∈ files, t.read f.1 = .ok f.2) →
          r.readFiles t (files.map Prod.fst) =
            .ok (r.readSources .empty (files.map fun f => (f.1, textOfBytes f.2)))) ∧
      ∀ (r : Reader) (t : FileTree) (sources : List (String × String)),
        (∀ s ∈ sources, t.read s.1 = .ok (Text.encode s.2.toList)) →
          r.readFiles t (sources.map Prod.fst) = .ok (r.readSources .empty sources) := by
  refine ⟨fun a b => ?_, fun a x b ha hb hx hr hn => ?_, fun r t files => readFiles_eq,
    fun r t sources h => ?_⟩
  · rw [List.append_cons]
    exact linesOfBytes_append (.inl List.getLast?_concat)
  · have hline := linesOfBytes_line hx hr hn hb
    rw [List.append_assoc]
    cases hlast : a.getLast? with
    | none =>
        obtain rfl := List.getLast?_eq_none_iff.mp hlast
        rw [List.nil_append, hline, linesOfBytes_nil, List.nil_append]
    | some c =>
        have hhead : (x ++ b).head? ≠ some 0x0A := by
          rw [List.head?_append_of_ne_nil x hx]
          exact fun h => hn (List.mem_of_mem_head? h)
        rw [linesOfBytes_append, hline]
        obtain rfl | rfl := ha c hlast
        · exact .inr ⟨hlast, hhead⟩
        · exact .inl hlast
  · have hread : ∀ f ∈ sources.map (fun s => (s.1, Text.encode s.2.toList)),
        t.read f.1 = .ok f.2 := List.forall_mem_map.mpr h
    have hnames : (sources.map fun s => (s.1, Text.encode s.2.toList)).map Prod.fst =
        sources.map Prod.fst := List.map_map
    rw [← hnames, readFiles_eq hread]
    refine congrArg Except.ok (readSources_congr ?_)
    rw [List.map_map, List.map_map]
    exact List.map_congr_left fun s _ => congrArg (s.1, ·) (linesOf_textOfBytes_encode s.2)

/-- The first two bytes of three make no character with what stands on the next line. -/
theorem corruption_stays_on_its_line_truncated :
    let a : List UInt8 := [0x47, 0x0D]
    let x : List UInt8 := [0xE2, 0x82]
    let b : List UInt8 := [0x0A, 0xAC, 0x0A, 0x0A]
    (∀ c ∈ a.getLast?, c = 0x0D ∨ c = 0x0A) ∧ (∀ c ∈ b.head?, c = 0x0D ∨ c = 0x0A) ∧ x ≠ [] ∧
      0x0D ∉ x ∧ 0x0A ∉ x ∧ linesOfBytes (a ++ x ++ b) = ["G", "\uFFFD", "\uFFFD", ""] := by
  intro a x b
  have ha : ∀ c ∈ a.getLast?, c = 0x0D ∨ c = 0x0A := fun _ hc => .inl (Option.some.inj hc).symm
  have hb : ∀ c ∈ b.head?, c = 0x0D ∨ c = 0x0A := fun _ hc => .inr (Option.some.inj hc).symm
  have hr : 0x0D ∉ x := by decide
  have hn : 0x0A ∉ x := by decide
  have hlines := corruption_stays_on_its_line.2.1 a x b ha hb (List.cons_ne_nil _ _) hr hn
  exact ⟨ha, hb, List.cons_ne_nil _ _, hr, hn, hlines.trans (by decide +kernel)⟩

end ThreatModel.Annotations.Reader
