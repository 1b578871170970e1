import ThreatModel.Proofs.CallGraph.Edge
import ThreatModel.Proofs.FunctionName.Dots

/-!
# Function names — which names fall back on their dots

A name has a key if a dot stands in front of its last character, and only then
(`key?_eq_none_iff`).  What stands in front of that dot can always be read as a type, so none of the
other parts has to be found.

A number behind `#` changes nothing (`key?_append_ordinal`).  There is no dot in it, so what runs into
the number before the function is found fails there; and from every place of the name on, the
function is found with the number behind as it is without (`run_fromDot_append`).

An annotated function whose name has no key falls back on the name with its dots as colons
(`FallsBack`).  A call graph does not: a line with such a name is passed over, and no other edge is
(`CallGraph.skips_iff`).
-/

namespace ThreatModel

namespace FunctionName

open Pattern

variable {k : List Char → Kept Part → Option String} {kept : Kept Part} {w : String}

/-! ### Names with a dot -/

theorem mem_dropLast_iff {c : Char} {s : List Char} :
    c ∈ s.dropLast ↔ ∃ x y, s = x ++ c :: y ∧ y ≠ [] := by
  constructor
  · intro h
    have hne : s ≠ [] := fun e => by simp [e] at h
    obtain ⟨x, y, hxy⟩ := List.append_of_mem h
    refine ⟨x, y ++ [s.getLast hne], ?_, by simp⟩
    calc s = s.dropLast ++ [s.getLast hne] := (List.dropLast_concat_getLast hne).symm
      _ = x ++ c :: (y ++ [s.getLast hne]) := by rw [hxy]; simp
  · rintro ⟨x, y, rfl, hy⟩
    rw [List.dropLast_append_of_ne_nil (by simp), List.dropLast_cons_of_ne_nil hy]
    simp

/-- **A name has no key exactly if no dot stands in front of its last character.** -/
theorem key?_eq_none_iff (hn : '\n' ∉ w.toList) : key? w = none ↔ '.' ∉ w.toList.dropLast := by
  rw [mem_dropLast_iff]
  constructor
  · rintro h ⟨x, y, hw, hy⟩
    rw [hw] at hn
    -- what stands in front of the dot can be read as a type
    have hread : afterPath.Reads w.toList [] := by
      rw [hw]
      exact reads_afterPath (fun hm => hn (List.mem_append_left _ hm))
        (fun hm => hn (List.mem_append_right _ (List.mem_cons_of_mem _ hm))) hy
    have hmatch : (written.match? w).isSome :=
      match?_isSome_iff.mpr ⟨[], _, .inr rfl, _, .inr rfl, _, .inr rfl, hread⟩
    rw [Option.map_eq_none_iff.mp h] at hmatch
    cases hmatch
  · exact fun h => Option.eq_none_iff_forall_ne_some.mpr fun K hK => h (of_key? hK).1

/-! ### Ordinals -/

/-- There is no dot in an ordinal. -/
theorem IsOrdinal.head?_ne {ordinal : String} (ho : IsOrdinal ordinal) {r : List Char}
    (hr : r <:+ ordinal.toList) : r.head? ≠ some '.' := fun h =>
  ho.not_mem (by decide) (by decide) (hr.subset (List.mem_of_mem_head? h))

theorem run_fromDot_of_head?_ne {s : List Char} (h : s.head? ≠ some '.') :
    fromDot.run k s kept = none :=
  run_lit_of_head?_ne rfl h

/-- Behind its dot, the function is found with an ordinal or without one. -/
theorem run_fromDot {function : List Char} {ordinal : String} (hne : function ≠ [])
    (hsharp : '#' ∉ function) (hn : '\n' ∉ function) (ho : IsOrdinal ordinal) (kept : Kept Part) :
    fromDot.run (fun _ m => some (joined m)) ('.' :: (function ++ ordinal.toList)) kept =
      some (joinParts [Match.get? kept .path, Match.get? kept .package, Match.get? kept .type,
        some (String.ofList function)]) := by
  refine (run_lit "." _ _ _).trans (run_function_of_not_mem hne hsharp hn ho ?_)
  simp only [joined, get?_ordinalKept, Match.get?_cons_of_ne, Match.get?_cons_self, ne_eq,
    reduceCtorEq, not_false_eq_true]

/-- From any place of a name on, an ordinal behind the name changes nothing. -/
theorem run_fromDot_append {ordinal : String} (ho : IsOrdinal ordinal) {r : List Char}
    (hn : '\n' ∉ r) (hsharp : '#' ∉ r) (hlast : r.getLast? ≠ some '.') (kept : Kept Part) :
    fromDot.run (fun _ m => some (joined m)) (r ++ ordinal.toList)
        (keptBefore ordinal.toList kept) =
      fromDot.run (fun _ m => some (joined m)) r kept := by
  cases r with
  | nil =>
      rw [List.nil_append, run_fromDot_of_head?_ne (ho.head?_ne (List.suffix_refl _)),
        run_fromDot_of_head?_ne (by simp)]
  | cons c function =>
      by_cases hdot : c = '.'
      · subst hdot
        have hne : function ≠ [] := fun e => hlast (by rw [e]; rfl)
        rw [List.mem_cons, not_or] at hn hsharp
        have hbare := run_fromDot hne hsharp.2 hn.2 (.inl rfl) kept
        rw [String.toList_empty, List.append_nil] at hbare
        rw [List.cons_append, run_fromDot hne hsharp.2 hn.2 ho, hbare]
        simp only [Match.get?_keptBefore]
      · have hhead : ∀ s, (c :: s).head? ≠ some '.' := fun s e => hdot (Option.some.inj e)
        rw [List.cons_append, run_fromDot_of_head?_ne (hhead _), run_fromDot_of_head?_ne (hhead _)]

/-- **An ordinal changes no key**, and gives none to a name without one. -/
theorem key?_append_ordinal {ordinal : String} (ho : IsOrdinal ordinal) (hn : '\n' ∉ w.toList)
    (hsharp : '#' ∉ w.toList) (hlast : w.toList.getLast? ≠ some '.') :
    key? (w ++ ordinal) = key? w := by
  rw [key?_eq_run, key?_eq_run, String.toList_append]
  change beforeDot.run _ _ (keptBefore ordinal.toList []) = _
  refine run_append ?_ (fun r hr kept => ?_) fun r hr kept =>
    run_fromDot_of_head?_ne (ho.head?_ne hr)
  · simp [beforeDot, chain, Pattern.optional, field, several, Endless]
  · obtain ⟨x, hx⟩ := hr
    refine run_fromDot_append ho (fun hm => hn ?_) (fun hm => hsharp ?_) (fun h => hlast ?_) kept
    · simp [← hx, hm]
    · simp [← hx, hm]
    · rw [← hx, List.getLast?_append, h]
      rfl

/-! ### Names that fall back -/

/-- The name has no key, or only an empty one, and `key` takes its dots as colons instead. -/
def FallsBack (w : String) : Prop := ∀ K, key? w = some K → K = ""

theorem fallsBack_iff : FallsBack w ↔ key? w = none := by
  rw [Option.eq_none_iff_forall_ne_some]
  exact forall_congr' fun K => ⟨fun h hK => (of_key? hK).2 (h hK), fun h hK => absurd hK h⟩

instance : DecidablePred FallsBack := fun _ => decidable_of_iff _ fallsBack_iff.symm

theorem key_of_fallsBack (h : FallsBack w) : key w = colons w := by
  rw [key, fallsBack_iff.mp h]

theorem key?_of_not_fallsBack (h : ¬FallsBack w) : key? w = some (key w) := by
  rw [fallsBack_iff] at h
  obtain ⟨K, hK⟩ := Option.ne_none_iff_exists'.mp h
  rw [hK, key_of_key? hK]

/-- **Every name but the empty one has a key that is not empty.** -/
theorem key_ne_empty (hw : w ≠ "") : key w ≠ "" := by
  by_cases h : FallsBack w
  · rw [key_of_fallsBack h, ne_eq, ← String.toList_inj, toList_colons]
    simpa using hw
  · exact (of_key? (key?_of_not_fallsBack h)).2

end FunctionName

/-! ### Lines that are passed over -/

namespace CallGraph

open FunctionName

/-- The line is passed over as an edge whose names do not both have keys, with a report. -/
def Skips (g : Reading) (line : String) : Prop :=
  addLine g line =
    .ok { g with events := g.events ++ [.edgeSkipped (String.ofList (Text.trimRight line.toList))] }

/-- The edge names both, one as the caller and the other as the callee. -/
def Joins (m : Pattern.Match Part) (w w' : String) : Prop :=
  m.get .caller = w ∧ m.get .callee = w' ∨ m.get .caller = w' ∧ m.get .callee = w

variable {line : String} {m : Pattern.Match Part}

/-- **An edge is passed over exactly if one of its names falls back.** -/
theorem skips_iff (h : edge.match? (withoutLineEnds line) = some m) (g : Reading) :
    Skips g line ↔ FallsBack (m.get .caller) ∨ FallsBack (m.get .callee) := by
  rw [fallsBack_iff, fallsBack_iff, Skips, addLine, h]
  dsimp only
  cases key? (m.get .caller) with
  | none => simp
  | some caller =>
      cases key? (m.get .callee) with
      | none => simp
      | some callee =>
          -- the call is refused or added, and neither is reported
          cases siteOf m <;> simp [Reading.mk.injEq]

theorem skips_iff_of_joins (h : edge.match? (withoutLineEnds line) = some m) {w w' : String}
    (hjoins : Joins m w w') (g : Reading) : Skips g line ↔ FallsBack w ∨ FallsBack w' := by
  rw [skips_iff h]
  rcases hjoins with ⟨rfl, rfl⟩ | ⟨rfl, rfl⟩
  · rfl
  · exact or_comm

/-- A name that can stand in a call graph stands in some line beside one that has a key. -/
theorem exists_joins {w : String} (hw : IsCallee w) : ∃ line m w',
    edge.match? (withoutLineEnds line) = some m ∧ Joins m w w' ∧ ¬FallsBack w' := by
  have hmain : ¬FallsBack "main.main" := by decide +kernel
  let e : Edge := { caller := "main.main", marker := "static", line := "1", column := "1",
                    callee := w, callee_isCallee := hw }
  obtain ⟨m, hm, hfield⟩ := e.match?_text
  refine ⟨e.text ++ "", m, "main.main", ?_, .inr ⟨hfield .caller, hfield .callee⟩, hmain⟩
  rwa [e.withoutLineEnds_text (by decide)]

/-- A name falls back exactly if every line with it is passed over, whatever was read before. -/
theorem fallsBack_iff_skips {w : String} (hw : IsCallee w) :
    FallsBack w ↔ ∀ line m w', edge.match? (withoutLineEnds line) = some m → Joins m w w' →
      ∀ g, Skips g line := by
  constructor
  · exact fun hfalls line m w' h hjoins g => (skips_iff_of_joins h hjoins g).mpr (.inl hfalls)
  · intro hskips
    obtain ⟨line, m, w', h, hjoins, hw'⟩ := exists_joins hw
    exact ((skips_iff_of_joins h hjoins {}).mp (hskips line m w' h hjoins {})).resolve_right hw'

end CallGraph

namespace FunctionName

open CallGraph

/-- **Names have keys by their dots.**  A name of one line has no key exactly if no dot stands in
front of its last character, and an ordinal changes nothing.  No key is empty, and every function
with a name has one: that of the name if it has any, and else, if it falls back, the name with its
dots as colons.  An edge of a call graph is passed over exactly if one of its two names falls back;
so a name that a call graph can hold falls back exactly if every line with it is passed over. -/
theorem undotted_names_fall_back (w : String) :
    ('\n' ∉ w.toList →
      (key? w = none ↔ '.' ∉ w.toList.dropLast) ∧
      ∀ ordinal, IsOrdinal ordinal → '#' ∉ w.toList → w.toList.getLast? ≠ some '.' →
        key? (w ++ ordinal) = key? w) ∧
    (∀ K, key? w = some K → K ≠ "") ∧
    (∀ r : FunctionRecord, r.qualifiedName = w → (w ≠ "" → r.key ≠ "") ∧
      (FallsBack w → r.key = colons w) ∧ (¬FallsBack w → key? w = some r.key)) ∧
    (∀ line m w', edge.match? (withoutLineEnds line) = some m → Joins m w w' →
      ∀ g, Skips g line ↔ FallsBack w ∨ FallsBack w') ∧
    (IsCallee w → (FallsBack w ↔ ∀ line m w', edge.match? (withoutLineEnds line) = some m →
      Joins m w w' → ∀ g, Skips g line)) := by
  refine ⟨fun hn => ⟨key?_eq_none_iff hn, fun ordinal ho => key?_append_ordinal ho hn⟩,
    fun K hK => (of_key? hK).2, ?_, fun line m w' h hjoins => skips_iff_of_joins h hjoins,
    fallsBack_iff_skips⟩
  rintro r rfl
  exact ⟨key_ne_empty, key_of_fallsBack, key?_of_not_fallsBack⟩

/-- A dot at the end makes no key, and a number behind `#` changes none. -/
theorem undotted_names_fall_back_init :
    let r : FunctionRecord := { model := "m", function := "init." }
    let line := "init.\t--static-1:1-->\tmain.main"
    key? "init." = none ∧ r.key ≠ "" ∧ r.key = "init:" ∧ (∀ g, Skips g line) ∧
      key? "(*org/app.Server).Handle#12" = some "org:app:Server:Handle" := by
  intro r line
  obtain ⟨hkey, -, hrecord, -, hskips⟩ := undotted_names_fall_back "init."
  have hnone : key? "init." = none := (hkey (by decide)).1.mpr (by decide)
  have hfalls : FallsBack "init." := fallsBack_iff.mpr hnone
  obtain ⟨hne, hcolons, -⟩ := hrecord r rfl
  have hnames : (edge.match? (withoutLineEnds line)).map
      (fun m => (m.get .caller, m.get .callee)) = some ("init.", "main.main") := by decide +kernel
  obtain ⟨m, hm, hnames⟩ := Option.map_eq_some_iff.mp hnames
  obtain ⟨hcaller, hcallee⟩ := Prod.mk.inj hnames
  have hjoins : Joins m "init." "main.main" := .inl ⟨hcaller, hcallee⟩
  -- a name with a dot in front of its function
  obtain ⟨hordinal, -⟩ := undotted_names_fall_back "(*org/app.Server).Handle"
  have hnumber : IsOrdinal "#12" :=
    .inr ⟨"12", by decide, by decide, List.all_eq_true.mp (by decide)⟩
  have hsame := (hordinal (by decide)).2 "#12" hnumber (by decide) (by decide)
  refine ⟨hnone, hne (by decide), (hcolons hfalls).trans (by decide),
    (hskips (by decide)).mp hfalls line m "main.main" hm hjoins, hsame.trans ?_⟩
  decide +kernel

end FunctionName

end ThreatModel
