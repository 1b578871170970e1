import ThreatModel.Proofs.Annotations.Records
import ThreatModel.Proofs.FunctionName.Dots

/-!
# Texts — what records say stands on one line

A field holds characters of its line only (`Pattern.mem_of_mem_get`).  So threats and descriptions
are written on one line (`isKept_worded`), and the key of a function is too, as it is made of the
name in its header and of the package above it (`newline_not_mem_of_mem_functions`).  A site names
one of the files that are read, and a line of it (`isKeptIn_sited`).
-/

namespace ThreatModel

/-! ### Keys -/

namespace FunctionName

/-- A key holds characters of the name, and colons. -/
theorem mem_of_mem_key {name : String} {c : Char} (h : c ∈ (key name).toList) :
    c = ':' ∨ c ∈ name.toList := by
  have hcolons : c ∈ (colons name).toList → c = ':' ∨ c ∈ name.toList := by
    intro hc
    rw [toList_colons] at hc
    obtain ⟨d, hd, rfl⟩ := List.mem_map.mp hc
    rw [colon]
    split
    · exact .inl rfl
    · exact .inr hd
  rw [key] at h
  split at h
  · rename_i k hk
    split at h
    · exact hcolons h
    · obtain ⟨m, hm, rfl⟩ := Option.map_eq_some_iff.mp hk
      rw [joinParts, String.toList_intercalate] at h
      rcases mem_of_mem_intercalate h with hcolon | ⟨l, hl, hc⟩
      · exact .inl hcolon
      -- each part is what a field holds
      obtain ⟨part, hpart, rfl⟩ := List.mem_map.mp hl
      have hget : ∃ f, part = m.get f := by
        have hpart := List.mem_of_mem_filter hpart
        simp only [List.map_cons, List.map_nil, List.mem_cons, List.not_mem_nil, or_false] at hpart
        rcases hpart with rfl | rfl | rfl | rfl <;> exact ⟨_, rfl⟩
      obtain ⟨f, rfl⟩ := hget
      exact .inr (Pattern.mem_of_mem_get hm hc)
  · exact hcolons h

end FunctionName

/-- The key of a record is on one line if its names are. -/
theorem FunctionRecord.newline_not_mem_key {r : FunctionRecord} (hf : '\n' ∉ r.function.toList)
    (hp : ∀ p ∈ r.package, '\n' ∉ p.name.toList) : '\n' ∉ r.key.toList := by
  intro h
  have hname : '\n' ∈ r.qualifiedName.toList :=
    (FunctionName.mem_of_mem_key h).resolve_left (by decide)
  rw [qualifiedName] at hname
  cases hpackage : r.package with
  | none => exact hf (by simpa [hpackage] using hname)
  | some p =>
      have hname' : '\n' ∈ p.name.toList ∨ '\n' ∈ r.function.toList := by
        simpa [hpackage] using hname
      exact hname'.elim (hp p hpackage) hf

namespace Annotations

theorem newline_not_mem_of_packageIn? {line : String} (hn : '\n' ∉ line.toList) {p : Package}
    (h : packageIn? line = some p) : '\n' ∉ p.name.toList := by
  obtain ⟨m, hm, rfl⟩ := Option.map_eq_some_iff.mp h
  exact fun hmem => hn (Pattern.mem_of_mem_get hm hmem)

/-- The records that headers open have keys on one line. -/
theorem newline_not_mem_key_of_mem_headings {lines : List String}
    (hn : ∀ line ∈ lines, '\n' ∉ line.toList) {package : Option Package}
    (hp : ∀ p ∈ package, '\n' ∉ p.name.toList) {r : FunctionRecord}
    (hr : r ∈ headings package lines) : '\n' ∉ r.key.toList := by
  induction lines generalizing package with
  | nil => cases hr
  | cons line lines ih =>
      obtain ⟨hline, hlines⟩ := List.forall_mem_cons.mp hn
      rcases List.mem_append.mp hr with hhead | hrest
      · rw [Option.mem_toList, heading?] at hhead
        split at hhead
        · obtain ⟨m, hm, rfl⟩ := Option.map_eq_some_iff.mp hhead
          exact FunctionRecord.newline_not_mem_key
            (fun h => hline (Pattern.mem_of_mem_get hm h)) hp
        · cases hhead
      · refine ih hlines (fun p hpackage => ?_) hrest
        rw [Option.mem_def, Option.or_eq_some_iff] at hpackage
        rcases hpackage with hin | ⟨-, habove⟩
        · exact newline_not_mem_of_packageIn? hline hin
        · exact hp p habove

/-- **The keys of the table are on one line**, as each is that of a header's record. -/
theorem newline_not_mem_of_mem_functions (ps : List Parse) {key : String} {r : FunctionRecord}
    (hr : (key, r) ∈ (parseAll .empty ps).functions) : '\n' ∉ key.toList := by
  have hfiled : (parseAll .empty ps).Filed := filed_parseAll Facts.filed_empty ps
  obtain ⟨⟨key, id⟩, hmem, heq⟩ := List.mem_map.mp hr
  cases heq
  have hid : id < (parseAll .empty ps).records.length :=
    hfiled.mem_iff.mp (List.mem_append_left _ (List.mem_map_of_mem hmem))
  have hrecord : (parseAll .empty ps).record id ∈ (parseAll .empty ps).records := by
    rw [Facts.record, List.getD_eq_getElem?_getD, List.getElem?_eq_getElem hid]
    exact List.getElem_mem hid
  have hopened := List.mem_map_of_mem (f := FunctionRecord.opened) hrecord
  rw [opened_records_parseAll] at hopened
  obtain ⟨p, -, hheading⟩ := List.mem_flatMap.mp hopened
  rw [← hfiled.key_of_mem hmem, ← FunctionRecord.key_opened]
  exact newline_not_mem_key_of_mem_headings
    (fun _ => Reader.newline_not_mem_of_mem_linesOf) (fun _ hp => by cases hp) hheading

end Annotations

/-! ### Threats and descriptions -/

/-- Threat and description are written on one line. -/
structure ThreatFact.OneLine (m : ThreatFact) : Prop where
  threat : '\n' ∉ m.threat.toList
  description : '\n' ∉ m.description.toList

/-- The mitigations and the exposures of a record. -/
def FunctionRecord.threatFacts (r : FunctionRecord) : List ThreatFact :=
  r.mitigations ++ r.exposures

namespace Annotations

/-- The mitigation or the exposure that a statement says. -/
def Statement.threatFacts : Statement → List ThreatFact
  | mitigation m => [m]
  | exposure e   => [e]
  | _            => []

theorem Statement.oneLine_of_mem_threatFacts {line : String} {l : Language} {inBlock : Bool}
    {st : Statement} (hn : '\n' ∉ line.toList) (h : statement? rules l inBlock line = some st)
    {m : ThreatFact} (hm : m ∈ st.threatFacts) : m.OneLine := by
  obtain ⟨rule, -, hread⟩ := exists_read_of_statement? h
  cases rule with
  | form f =>
      obtain ⟨fields, hfields, rfl⟩ := Option.map_eq_some_iff.mp hread
      have hget : ∀ part, '\n' ∉ (fields.get part).toList := fun part hmem =>
        hn (Pattern.mem_of_mem_get hfields hmem)
      cases f with
      | mitigation | exposure =>
          obtain rfl := List.mem_singleton.mp hm
          exact ⟨hget _, hget _⟩
      | _ => cases hm
  | definition =>
      obtain ⟨fields, -, rfl⟩ := Option.map_eq_some_iff.mp hread
      cases hm

/-- A statement adds to a record the mitigation or the exposure that it says. -/
theorem Statement.mem_threatFacts_addTo {file : String} {number : Int} {st : Statement}
    {r : FunctionRecord} {m : ThreatFact} (h : m ∈ (st.addTo file number r).threatFacts) :
    m ∈ r.threatFacts ∨ m ∈ st.threatFacts := by
  cases st with
  | definition f c =>
      rw [addTo] at h
      split at h <;> exact .inl h
  | _ =>
      simp only [addTo, FunctionRecord.threatFacts, Statement.threatFacts, List.mem_append] at h ⊢
      tauto

/-- Threats and descriptions of all records are on one line. -/
theorem isKept_worded : IsKept fun r => ∀ m ∈ r.threatFacts, m.OneLine where
  opened _ _ hm := nomatch hm
  addTo hn hst h m hm :=
    (Statement.mem_threatFacts_addTo hm).elim (h m) (Statement.oneLine_of_mem_threatFacts hn hst)

/-! ### Sites -/

/-- The sites of all records are lines of the files that are read. -/
theorem isKeptIn_sited (files : String → Prop) :
    IsKeptIn files fun r => ∀ s ∈ r.site, files s.file ∧ 0 < s.line where
  opened _ _ hs := nomatch hs
  addTo {file line l inBlock st number r} hfile hnumber _ _ h s hs := by
    cases st with
    | definition f c =>
        rw [Statement.addTo] at hs
        split at hs
        · cases hs
          exact ⟨hfile, Int.natCast_pos.mpr hnumber⟩
        · exact h s hs
    | _ => exact h s hs

end Annotations

end ThreatModel
