import ThreatModel.Proofs.Annotations.Records
import ThreatModel.Proofs.Annotations.Splitting

/-!
# Directions — data is sent or received

The direction of a flow is the keyword of its line in lower case, and no line of a text has a
newline in it, so the split of the line finds the keyword (`Form.isDirection_of_read?`).  Records
get their flows from statements of that form (`isKept_directed`), so the flows of all records of any
parses are directed (`directed_parseAll`).
-/

namespace ThreatModel

/-- The directions that data can take. -/
def IsDirection (direction : String) : Prop := direction = "sends" ∨ direction = "receives"

/-- The flows of a record are sent or received. -/
def FunctionRecord.Directed (r : FunctionRecord) : Prop := ∀ x ∈ r.flows, IsDirection x.direction

/-- The flows of all records are sent or received. -/
def Facts.Directed (f : Facts) : Prop := ∀ r ∈ f.records, r.Directed

theorem Facts.directed_empty : Facts.empty.Directed := by
  intro r hr
  cases hr

namespace Annotations

variable {line : String}

/-! ### The keyword of a flow -/

theorem Form.isDirection_of_keyword {w : String} (hw : w ∈ Form.flow.keywords) :
    IsDirection (String.ofList (Text.lower w.toList.dropLast)) := by
  simp only [Form.keywords, List.mem_cons, List.not_mem_nil, or_false] at hw
  rcases hw with rfl | rfl
  · exact .inl (by decide +kernel)
  · exact .inr (by decide +kernel)

/-- The direction of a flow is the keyword of its line. -/
theorem Form.isDirection_of_read? (hn : '\n' ∉ line.toList) {x : DataFlow}
    (h : Form.flow.read? line = some (.flow x)) : IsDirection x.direction := by
  obtain ⟨m, hm, hx⟩ := Option.map_eq_some_iff.mp h
  cases hx
  have hsplit := Form.texts_match? .flow hn
  rw [hm, Option.map_some] at hsplit
  have hlookup := Form.lookup_texts (Form.nodup_split? hsplit.symm) .direction
  rw [Form.split?] at hsplit
  simp only [Option.bind_eq_bind] at hsplit
  obtain ⟨t, -, ht⟩ := Option.bind_eq_some_iff.mp hsplit.symm
  obtain ⟨⟨w, s⟩, hw, hs⟩ := Option.bind_eq_some_iff.mp ht
  obtain ⟨fs, -, htexts⟩ := Option.bind_eq_some_iff.mp hs
  obtain ⟨hw, -⟩ := Form.eq_of_keyword? hw
  have hget : m.get .direction = String.ofList w.toList.dropLast := by
    rw [Pattern.Match.get, ← hlookup, ← Option.some.inj htexts]
    rfl
  have hdirection := Form.isDirection_of_keyword hw
  rw [← String.toList_ofList (l := w.toList.dropLast), ← hget] at hdirection
  exact hdirection

/-- What a statement adds to a record leaves it directed. -/
theorem isKept_directed : IsKept FunctionRecord.Directed where
  opened r x hx := nomatch hx
  addTo {file line l inBlock st number r} hn hst h := by
    cases st with
    | flow x =>
        intro y hy
        rcases List.mem_append.mp hy with hold | hnew
        · exact h y hold
        · obtain rfl := List.mem_singleton.mp hnew
          exact Form.isDirection_of_read? hn (read?_of_statement? hst rfl)
    | definition f c =>
        simp only [Statement.addTo]
        split <;> exact h
    | _ => exact h

/-- **The flows that any parses read are sent or received.** -/
theorem directed_parseAll {facts : Facts} (h : facts.Directed) (ps : List Parse) :
    (parseAll facts ps).Directed :=
  isKept_directed.parseAll h ps

end Annotations

/-- The functions of the table are directed. -/
theorem Facts.Directed.of_mem_functions {f : Facts} (h : f.Directed) {key : String}
    {r : FunctionRecord} (hr : (key, r) ∈ f.functions) : r.Directed :=
  Annotations.isKept_directed.of_mem_functions h hr

end ThreatModel
