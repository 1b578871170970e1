import ThreatModel.Annotations.Reader
import ThreatModel.Proofs.Annotations.Fields
import ThreatModel.Proofs.Pattern.Search

/-!
# Rules — no line is read by two rules, but for packages and headers

Every form opens with one of its keywords behind the marks of a comment
(`Form.exists_keyword_of_reads`), and a definition opens with a letter, so the text behind the
marks (`commentText?`) decides which form can read a line.  Keywords of two forms are never
prefixes of one text, with one exception: `ThreatSpec package ` extends the header's
`ThreatSpec `.

* `rule_unique`: two rules that read one line are equal, or they are the package's and the
  header's.
* `statement?_of_read`: what a rule reads in a line is the line's statement, if the rule is tried
  there and no package is read.
* `statement?_eq_none_iff`: a line has no statement iff every rule that is tried there fails.
-/

namespace ThreatModel.Annotations

open Pattern

/-! ### The text of a comment -/

/-- What stands in a comment line behind `//` or `#`, without leading blanks. -/
def commentText? (line : List Char) : Option (List Char) :=
  match Text.dropBlanks line with
  | '/' :: '/' :: s => some (Text.dropBlanks s)
  | '#' :: s        => some (Text.dropBlanks s)
  | _               => none

theorem dropBlanks_append {b s : List Char} {c : Char} (hb : ∀ d ∈ b, Text.isBlank d = true)
    (hc : Text.isBlank c = false) : Text.dropBlanks (b ++ c :: s) = c :: s := by
  induction b with
  | nil => simp [Text.dropBlanks, hc]
  | cons d b ih =>
      have hd := hb d (by simp)
      simpa [Text.dropBlanks, hd] using ih fun x hx => hb x (by simp [hx])

/-- The marks of a comment in front of a text that is not blank. -/
theorem commentText?_of_reads {s t : List Char} {c : Char} (h : comment.Reads s (c :: t))
    (hc : Text.isBlank c = false) : commentText? s = some (c :: t) := by
  obtain ⟨s₁, ⟨b₁, hb₁, rfl⟩, s₂, hmark, b₂, hb₂, rfl⟩ := h
  rcases hmark with h | h
  · obtain rfl : s₁ = '/' :: '/' :: (b₂ ++ c :: t) := h
    rw [commentText?, dropBlanks_append hb₁ (by decide)]
    simp [dropBlanks_append hb₂ hc]
  · obtain rfl : s₁ = '#' :: (b₂ ++ c :: t) := h
    rw [commentText?, dropBlanks_append hb₁ (by decide)]
    simp [dropBlanks_append hb₂ hc]

/-- The words that open a form. -/
def Form.keywords : Form → List String
  | package    => ["ThreatSpec package "]
  | header     => ["ThreatSpec "]
  | mitigation => ["Mitigates "]
  | exposure   => ["Exposes "]
  | capability => ["It ", "Does ", "Creates ", "Returns "]
  | flow       => ["Sends ", "Receives "]
  | test       => ["Tests "]
  | calls      => ["Calls "]

theorem Form.exists_keyword_of_opened {f : Form} {T : Pattern Part} {s r : List Char}
    (h : (f.opened T).Reads s r) : ∃ w ∈ f.keywords, ∃ t, s = w.toList ++ t := by
  cases f with
  | package | header | mitigation | exposure | test | calls =>
      obtain ⟨t, rfl, -⟩ := h
      exact ⟨_, by simp [keywords], t, rfl⟩
  | capability =>
      obtain ⟨_, hw, t, rfl, -⟩ := h
      rcases hw with rfl | rfl | rfl | rfl
      · exact ⟨"It ", by simp [keywords], t, rfl⟩
      · exact ⟨"Does ", by simp [keywords], t, rfl⟩
      · exact ⟨"Creates ", by simp [keywords], t, rfl⟩
      · exact ⟨"Returns ", by simp [keywords], t, rfl⟩
  | flow =>
      obtain ⟨_, hw, t, rfl, -⟩ := h
      rcases hw with rfl | rfl
      · exact ⟨"Sends ", by simp [keywords], t, rfl⟩
      · exact ⟨"Receives ", by simp [keywords], t, rfl⟩

/-- A form is read behind one of its keywords. -/
theorem Form.exists_keyword_of_reads {f : Form} {s r : List Char} (h : f.pattern.Reads s r) :
    ∃ w ∈ f.keywords, ∃ t, comment.Reads s (w.toList ++ t) := by
  rw [pattern_eq] at h
  obtain ⟨_, hs, hopened⟩ := h
  obtain ⟨w, hw, t, rfl⟩ := exists_keyword_of_opened hopened
  exact ⟨w, hw, t, hs⟩

/-- No keyword opens with a blank. -/
theorem Form.keyword_head (f : Form) :
    ∀ w ∈ f.keywords, w.toList.head?.map Text.isBlank = some false := by
  cases f <;> decide

/-- The text of a comment in front of a keyword starts with the keyword. -/
theorem Form.commentText?_of_keyword {f : Form} {w : String} (hw : w ∈ f.keywords)
    {s t : List Char} (h : comment.Reads s (w.toList ++ t)) :
    commentText? s = some (w.toList ++ t) := by
  obtain ⟨c, hc, hblank⟩ := Option.map_eq_some_iff.mp (f.keyword_head w hw)
  obtain ⟨cs, hcs⟩ := List.head?_eq_some_iff.mp hc
  rw [hcs] at h ⊢
  exact Annotations.commentText?_of_reads h hblank

theorem Form.commentText?_of_reads {f : Form} {s r : List Char} (h : f.pattern.Reads s r) :
    ∃ w ∈ f.keywords, ∃ t, commentText? s = some (w.toList ++ t) := by
  obtain ⟨w, hw, t, hs⟩ := exists_keyword_of_reads h
  exact ⟨w, hw, t, commentText?_of_keyword hw hs⟩

/-- Keywords of two forms do not extend each other, but for those of headers and packages. -/
theorem Form.keywords_prefix (f g : Form) :
    ∀ v ∈ f.keywords, ∀ w ∈ g.keywords, v.toList <+: w.toList →
      f = g ∨ f = .header ∧ g = .package := by
  cases f <;> cases g <;> decide

/-! ### Definitions in the code -/

/-- A definition opens with the letter of `func`, `async` or `def`. -/
theorem commentText?_of_definition {l : Language} {s r : List Char}
    (h : l.definition.Reads s r) : commentText? s = none := by
  have hopen : ∃ b c t, (∀ d ∈ b, Text.isBlank d = true) ∧ s = b ++ c :: t ∧
      c ∈ ['f', 'a', 'd'] := by
    cases l with
    | go =>
        obtain ⟨s₁, ⟨b, hb, rfl⟩, t, rfl, -⟩ := h
        exact ⟨b, 'f', _, hb, rfl, by simp⟩
    | python =>
        obtain ⟨s₁, ⟨b, hb, rfl⟩, s₂, hasync, t, ht, -⟩ := h
        rcases hasync with ⟨u, rfl, -⟩ | rfl
        · exact ⟨b, 'a', _, hb, rfl, by simp⟩
        · exact ⟨b, 'd', _, hb, congrArg _ ht, by simp⟩
    | ruby =>
        obtain ⟨s₁, ⟨b, hb, rfl⟩, t, rfl, -⟩ := h
        exact ⟨b, 'd', _, hb, rfl, by simp⟩
  obtain ⟨b, c, t, hb, rfl, hc⟩ := hopen
  have hblank : Text.isBlank c = false := by
    simp only [List.mem_cons, List.not_mem_nil, or_false] at hc
    rcases hc with rfl | rfl | rfl <;> decide
  rw [commentText?, dropBlanks_append hb hblank]
  split <;> simp_all

/-! ### Which rule reads a line -/

theorem Form.reads_of_read? {f : Form} {l : Language} {line : String}
    (h : ((Rule.form f).read? l line).isSome) : ∃ r, f.pattern.Reads line.toList r :=
  match?_isSome_iff.mp (by simpa [Rule.read?] using h)

theorem Form.commentText?_of_read? {f : Form} {l : Language} {line : String}
    (h : ((Rule.form f).read? l line).isSome) :
    ∃ w ∈ f.keywords, ∃ t, commentText? line.toList = some (w.toList ++ t) := by
  obtain ⟨r, hr⟩ := Form.reads_of_read? h
  exact Form.commentText?_of_reads hr

theorem commentText?_of_read?_definition {l : Language} {line : String}
    (h : (Rule.definition.read? l line).isSome) : commentText? line.toList = none := by
  obtain ⟨r, hr⟩ := match?_isSome_iff.mp (show (l.definition.match? line).isSome by
    simpa [Rule.read?] using h)
  exact commentText?_of_definition hr

/-- **Two rules that read one line are equal, but for the package's and the header's.** -/
theorem rule_unique {r r' : Rule} {l : Language} {line : String} (h : (r.read? l line).isSome)
    (h' : (r'.read? l line).isSome) :
    r = r' ∨ r = .form .header ∧ r' = .form .package ∨ r = .form .package ∧ r' = .form .header := by
  cases r with
  | form f =>
      obtain ⟨v, hv, t, ht⟩ := Form.commentText?_of_read? h
      cases r' with
      | form g =>
          obtain ⟨w, hw, u, hu⟩ := Form.commentText?_of_read? h'
          have htu : v.toList ++ t = w.toList ++ u := Option.some.inj (ht.symm.trans hu)
          rcases List.prefix_or_prefix_of_prefix ⟨t, rfl⟩ ⟨u, htu.symm⟩ with hvw | hwv
          · rcases Form.keywords_prefix f g v hv w hw hvw with rfl | ⟨rfl, rfl⟩
            · exact .inl rfl
            · exact .inr (.inl ⟨rfl, rfl⟩)
          · rcases Form.keywords_prefix g f w hw v hv hwv with rfl | ⟨rfl, rfl⟩
            · exact .inl rfl
            · exact .inr (.inr ⟨rfl, rfl⟩)
      | definition =>
          rw [commentText?_of_read?_definition h'] at ht
          cases ht
  | definition =>
      have hnone := commentText?_of_read?_definition h
      cases r' with
      | form g =>
          obtain ⟨w, hw, u, hu⟩ := Form.commentText?_of_read? h'
          rw [hnone] at hu
          cases hu
      | definition => exact .inl rfl

/-! ### The statement of a line -/

theorem mem_rules (r : Rule) : r ∈ rules := by
  cases r with
  | form f => cases f <;> decide
  | definition => decide

variable {l : Language} {inBlock : Bool} {line : String} {r : Rule} {st : Statement}

/-- A statement is what some rule reads that is tried there. -/
theorem exists_read_of_statement? (h : statement? rules l inBlock line = some st) :
    ∃ r : Rule, (r.blockOnly = true → inBlock = true) ∧ r.read? l line = some st := by
  obtain ⟨r, -, hr⟩ := List.exists_of_findSome?_eq_some h
  split at hr
  · cases hr
  · rename_i hb
    refine ⟨r, fun hr' => ?_, hr⟩
    simpa [hr'] using hb

/-- A package is read before everything else. -/
theorem statement?_of_package (h : (Rule.form .package).read? l line = some st) :
    statement? rules l inBlock line = some st := by
  simp [statement?, rules, Rule.blockOnly, h]

/-- **What a rule reads in a line is the line's statement**, if the rule is tried there and no
package is read. -/
theorem statement?_of_read (h : r.read? l line = some st) (hb : r.blockOnly = true → inBlock = true)
    (hp : r = .form .header → (Rule.form .package).read? l line = none) :
    statement? rules l inBlock line = some st := by
  have hsome : (statement? rules l inBlock line).isSome := by
    rw [statement?, List.findSome?_isSome_iff]
    refine ⟨r, mem_rules r, ?_⟩
    cases hr : r.blockOnly <;> simp_all
  obtain ⟨st', hst⟩ := Option.isSome_iff_exists.mp hsome
  obtain ⟨r', -, hr'⟩ := exists_read_of_statement? hst
  -- the rule that counts is `r`, unless one of them reads a package and the other a header
  rcases rule_unique (by rw [h]; rfl) (by rw [hr']; rfl) with rfl | ⟨rfl, rfl⟩ | ⟨rfl, rfl⟩
  · rw [hst, ← hr', h]
  · rw [hp rfl] at hr'
    cases hr'
  · exact statement?_of_package h

/-- A line has no statement iff every rule that is tried there fails. -/
theorem statement?_eq_none_iff : statement? rules l inBlock line = none ↔
    ∀ r : Rule, (r.blockOnly = true → inBlock = true) → r.read? l line = none := by
  rw [statement?, List.findSome?_eq_none_iff]
  refine ⟨fun h r hb => ?_, fun h r _ => ?_⟩
  · have hr := h r (mem_rules r)
    cases hblock : r.blockOnly <;> simp_all
  · split
    · rfl
    · rename_i hb
      exact h r fun hr => by simpa [hr] using hb

end ThreatModel.Annotations
