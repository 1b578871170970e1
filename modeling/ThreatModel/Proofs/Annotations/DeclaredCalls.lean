import ThreatModel.Proofs.Annotations.Spans
import ThreatModel.Proofs.FunctionName.Dots

/-!
# Declared calls — when a call finds the function it names

A `Calls` line records each name with its dots as colons, a header files its record under the key of
its name.  For a name of identifiers joined by dots, behind a path or not (`DottedName`), the call
finds the record exactly if the name is plain (`declared_call_resolves_iff`): without a path, if it
has at most three identifiers; with a path, never if it has two or more.

In `declared_calls_lost` functions declare that they call themselves, and are not found.
-/

namespace ThreatModel

namespace FunctionName

/-! ### Identifiers behind a path -/

/-- A segment of a path: a text without slashes and the marks of call graphs; dots may be in it. -/
def IsPathSegment (s : String) : Prop :=
  s ≠ "" ∧ ∀ c ∈ s.toList, c ∉ ['/', '(', ')', '*', '#', '\n']

instance : DecidablePred IsPathSegment := fun s =>
  @instDecidableAnd _ _ _ (List.decidableBAll _ s.toList)

/-- Identifiers joined by dots, behind the segments of a path. -/
structure DottedName where
  segments : List String
  identifiers : List String
  isPathSegment : ∀ s ∈ segments, IsPathSegment s
  isSegment : ∀ s ∈ identifiers, IsSegment s
  identifiers_ne_nil : identifiers ≠ []

/-- What joins texts that are not empty ends in the last of them. -/
theorem getLast?_intercalate_ne (sep : Char) {ps : List (List Char)} (hne : ps ≠ [])
    (h : ∀ p ∈ ps, p ≠ [] ∧ sep ∉ p) :
    [sep].intercalate ps ≠ [] ∧ ([sep].intercalate ps).getLast? ≠ some sep := by
  induction ps with
  | nil => exact absurd rfl hne
  | cons p ps ih =>
      obtain ⟨hp, hsep⟩ := h p List.mem_cons_self
      cases ps with
      | nil =>
          rw [List.intercalate_singleton]
          exact ⟨hp, fun hlast => hsep (List.mem_of_mem_getLast? hlast)⟩
      | cons q ps =>
          obtain ⟨hrest, hlast⟩ := ih (by simp) fun p' hp' => h p' (List.mem_cons_of_mem p hp')
          rw [List.intercalate_cons_cons]
          refine ⟨by simp, ?_⟩
          rwa [List.getLast?_append_of_ne_nil _ hrest]

namespace DottedName

/-- `segment/…/segment/identifier.….identifier` -/
def text (n : DottedName) : String :=
  String.join (n.segments.map (· ++ "/")) ++ String.intercalate "." n.identifiers

/-- The path, with a slash at the end of each segment. -/
def path (n : DottedName) : List Char := n.segments.flatMap fun s => s.toList ++ ['/']

variable (n : DottedName)

theorem toList_text :
    n.text.toList = n.path ++ ['.'].intercalate (n.identifiers.map String.toList) := by
  rw [text, path, String.toList_append, String.toList_join, List.flatMap_map,
    String.toList_intercalate]
  simp

/-- The identifiers, as texts. -/
theorem identifiers_chars {p : List Char} (hp : p ∈ n.identifiers.map String.toList) :
    p ≠ [] ∧ ∀ c ∈ p, c ∉ ['.', '/', '(', ')', '*', '#', '\n'] := by
  obtain ⟨s, hs, rfl⟩ := List.mem_map.mp hp
  exact ⟨(n.isSegment s hs).toList_ne_nil, (n.isSegment s hs).2⟩

theorem isBare_text : IsBare n.text.toList := by
  intro c hc hbar
  rw [toList_text, List.mem_append] at hc
  rcases hc with hc | hc
  · obtain ⟨s, hs, hc⟩ := List.mem_flatMap.mp hc
    rcases List.mem_append.mp hc with hc | hc
    · exact (n.isPathSegment s hs).2 c hc (List.mem_cons_of_mem _ hbar)
    · rw [List.mem_singleton.mp hc] at hbar
      exact absurd hbar (by decide)
  · rcases mem_of_mem_intercalate hc with rfl | ⟨p, hp, hc⟩
    · exact absurd hbar (by decide)
    · exact (n.identifiers_chars hp).2 c hc (by simp [hbar])

theorem getLast?_text : n.text.toList.getLast? ≠ some '.' := by
  obtain ⟨hne, hlast⟩ := getLast?_intercalate_ne '.' (by simpa using n.identifiers_ne_nil)
    fun p hp => (n.identifiers_chars hp).imp_right fun hchars hdot => hchars _ hdot (by simp)
  rwa [toList_text, List.getLast?_append_of_ne_nil _ hne]

theorem head?_text : n.text.toList.head? ≠ some '/' := by
  rw [toList_text, path]
  cases hsegments : n.segments with
  | nil =>
      obtain ⟨p, ps, hps⟩ := List.exists_cons_of_ne_nil (l := n.identifiers.map String.toList)
        (by simpa using n.identifiers_ne_nil)
      obtain ⟨hne, hchars⟩ := n.identifiers_chars (hps ▸ List.mem_cons_self)
      obtain ⟨c, p, rfl⟩ := List.exists_cons_of_ne_nil hne
      rw [hps, List.intercalate_cons_cons_left]
      rintro ⟨⟩
      exact hchars '/' List.mem_cons_self (by simp)
  | cons s ss =>
      obtain ⟨hne, hchars⟩ := n.isPathSegment s (hsegments ▸ List.mem_cons_self)
      obtain ⟨c, t, ht⟩ := List.exists_cons_of_ne_nil (l := s.toList) (by simpa using hne)
      rw [List.flatMap_cons, ht]
      rintro ⟨⟩
      exact hchars '/' (by simp [ht]) (by simp)

/-- Without a path, the identifiers are the pieces. -/
theorem isPlain_text_of_no_path (h : n.segments = []) :
    IsPlain n.text ↔ n.identifiers.length ≤ 3 := by
  have hpieces : pieces n.text = n.identifiers.map String.toList := by
    refine pieces_eq (by simp [toList_text, path, h]) (by simpa using n.identifiers_ne_nil) ?_
    exact fun p hp hdot => (n.identifiers_chars hp).2 _ hdot (by simp)
  rw [IsPlain, hpieces, List.length_map]
  refine and_iff_left fun p hp => ?_
  obtain ⟨hne, hchars⟩ := n.identifiers_chars (List.dropLast_subset _ hp)
  exact ⟨hne, fun hslash => hchars _ hslash (by simp)⟩

/-- With a path, a dot stands behind a slash if there are two identifiers. -/
theorem not_isPlain_text_of_path (h : n.segments ≠ []) (h2 : 2 ≤ n.identifiers.length) :
    ¬ IsPlain n.text := by
  rintro ⟨-, hplain⟩
  obtain ⟨s, ss, hsegments⟩ := List.exists_cons_of_ne_nil h
  obtain ⟨a, b, bs, hids⟩ : ∃ a b bs, n.identifiers = a :: b :: bs := by
    match hids : n.identifiers with
    | [] => exact absurd hids n.identifiers_ne_nil
    | [a] => simp [hids] at h2
    | a :: b :: bs => exact ⟨a, b, bs, rfl⟩
  have htext : n.text.toList =
      (n.path ++ a.toList) ++ '.' :: ['.'].intercalate ((b :: bs).map String.toList) := by
    simp [toList_text, hids, List.intercalate_cons_cons]
  -- the piece that holds the slash is one of those in front of that dot
  have hslash : '/' ∈ ['.'].intercalate ((n.path ++ a.toList).splitOn '.') := by
    rw [List.intercalate_splitOn]
    simp [path, hsegments]
  obtain ⟨⟨⟩⟩ | ⟨piece, hpiece, hin⟩ := mem_of_mem_intercalate hslash
  refine (hplain piece ?_).2 hin
  rw [pieces, htext, List.splitOn_append_cons_self,
    List.dropLast_append_of_ne_nil (List.splitOn_ne_nil _ _)]
  exact List.mem_append_left _ hpiece

/-- **The key of a dotted name is the name with its dots as colons exactly when it is plain.** -/
theorem key_eq_colons_iff : key n.text = colons n.text ↔ IsPlain n.text :=
  FunctionName.key_eq_colons_iff n.isBare_text n.head?_text n.getLast?_text

end DottedName

end FunctionName

/-! ### Calls -/

namespace Annotations

open FunctionName

variable {line : String} {s : State} {m : Pattern.Match Part} {i : Nat}

/-- A line of calls is read wherever it stands. -/
theorem statement?_of_calls {l : Language} {inBlock : Bool}
    (h : Form.calls.pattern.match? line = some m) :
    statement? rules l inBlock line = some (.calls (declaredCalls (m.get .functions) line)) := by
  refine statement?_of_read (r := .form .calls) ?_ nofun nofun
  rw [Rule.read?, h]
  rfl

/-- **A declared call finds the function it names exactly if the name is plain.**  The call that a
line of calls records for a dotted name is the key of a function with this qualified name if the
name is plain: without a path, if it has at most three identifiers; with a path, not if it has two
or more. -/
theorem declared_call_resolves_iff (rebind : Bool) (file : String) {id : RecordId}
    {n : DottedName} {r : FunctionRecord}
    (hline : Form.calls.pattern.match? line = some m)
    (hword : (Text.words (m.get .functions).toList)[i]? = some n.text.toList)
    (hcurrent : s.current = some id) (hid : id < s.facts.records.length)
    (hname : r.qualifiedName = n.text) :
    ∃ c, (((Reader.usual rebind).step file s line).facts.record id).calls[
          (s.facts.record id).calls.length + i]? = some c ∧
      (c.callee = r.key ↔ IsPlain n.text) ∧
      (n.segments = [] → (c.callee = r.key ↔ n.identifiers.length ≤ 3)) ∧
      (n.segments ≠ [] → 2 ≤ n.identifiers.length → c.callee ≠ r.key) ∧
      ∀ facts : Facts, facts.function? r.key = some r → IsPlain n.text →
        facts.function? c.callee = some r := by
  have hcallee : colons n.text = r.key ↔ IsPlain n.text := by
    rw [FunctionRecord.key, hname, eq_comm, n.key_eq_colons_iff]
  refine ⟨⟨colons n.text, line⟩, ?_, hcallee, fun h => ?_, fun h h2 => ?_,
    fun facts hr hplain => ?_⟩
  · rw [Reader.record_step_of_some (statement?_of_calls hline) hid, if_pos hcurrent,
      Statement.calls_addTo, List.getElem?_append_right (Nat.le_add_right _ _),
      Nat.add_sub_cancel_left]
    simp [Statement.declared, declaredCalls, hword]
  · rw [hcallee, n.isPlain_text_of_no_path h]
  · exact fun hkey => n.not_isPlain_text_of_path h h2 (hcallee.mp hkey)
  · rw [hcallee.mpr hplain, hr]

/-- `app.Server.Handle` -/
def appServerHandle : DottedName where
  segments := []
  identifiers := ["app", "Server", "Handle"]
  isPathSegment := by decide
  isSegment := by decide
  identifiers_ne_nil := by decide

theorem declared_call_resolves_method :
    let r : FunctionRecord :=
      { model := "m", function := "Server.Handle", package := some { name := "app" } }
    let s : State := { facts := (Facts.empty.add r).1, current := some 0 }
    let line := "# Calls app.Run app.Server.Handle"
    (Form.calls.pattern.match? line).isSome ∧ r.qualifiedName = appServerHandle.text ∧
      ∃ c, (((Reader.usual true).step "main.py" s line).facts.record 0).calls[1]? = some c ∧
        c.callee = r.key := by
  intro r s line
  have hsome : (Form.calls.pattern.match? line).isSome := by decide +kernel
  obtain ⟨m, hm⟩ := Option.isSome_iff_exists.mp hsome
  have hfunctions : m.get .functions = "app.Run app.Server.Handle" := by
    have h : (Form.calls.pattern.match? line).map (·.get .functions) =
        some "app.Run app.Server.Handle" := by decide +kernel
    simpa [hm] using h
  have hword : (Text.words (m.get .functions).toList)[1]? = some appServerHandle.text.toList := by
    rw [hfunctions]
    decide +kernel
  have hname : r.qualifiedName = appServerHandle.text := by decide
  obtain ⟨c, hc, -, hplain, -⟩ := declared_call_resolves_iff true "main.py" (s := s)
    hm hword rfl Nat.zero_lt_one hname
  exact ⟨hsome, hname, c, hc, (hplain rfl).mpr (by decide)⟩

/-- Behind a path, and with four identifiers, a function that declares that it calls itself is not
found. -/
theorem declared_calls_lost :
    let facts := (Reader.readSource {} .empty "main.go"
      "// ThreatSpec m for github.com/org/app.Handle\n// Calls github.com/org/app.Handle\n").1
    let deep := (Reader.readSource {} .empty "main.go"
      "// ThreatSpec m for a.b.c.d\n// Calls a.b.c.d\n").1
    facts.table.keys = ["github.com/org:app:Handle"] ∧
      (facts.record 0).calls.map DeclaredCall.callee = ["github:com/org/app:Handle"] ∧
      deep.table.keys = ["a:b:c.d"] ∧
      (deep.record 0).calls.map DeclaredCall.callee = ["a:b:c:d"] := by
  decide +kernel

end Annotations

end ThreatModel
