import ThreatModel.Proofs.CallGraph.Edge
import ThreatModel.Proofs.Ledger

/-!
# Grouping — a call graph is the calls of its edges, grouped by caller and callee

`Writes es lines` says that the lines write the edges in order, with line ends of any kind behind
them and with lines in between that are no edges.  An edge whose two functions have keys stands for
a call (`Edge.call?`), and the others leave no trace in the graph.

* `addLine_text`, `addLine_of_match?_eq_none`: what a line does.
* `ofLines_of_writes`: reading fails if a call stands at a number that is too long; otherwise it
  gives the calls, grouped.
-/

namespace ThreatModel.CallGraph

/-! ### Calls -/

/-- A call between two functions, which go by their keys. -/
structure KeyedCall where
  caller : String
  callee : String
  site : CallSite
deriving DecidableEq, Repr

namespace Edge

/-- Where the call stands. -/
def site (e : Edge) : CallSite := ⟨valueOf e.line, valueOf e.column⟩

/-- The call that the edge shows, if both functions have keys. -/
def call? (e : Edge) : Option KeyedCall := do
  let caller ← FunctionName.key? e.caller
  let callee ← FunctionName.key? e.callee
  return ⟨caller, callee, e.site⟩

/-- The line or the column has too many digits. -/
def TooLong (e : Edge) : Prop := 4300 < e.line.length ∨ 4300 < e.column.length

instance : DecidablePred TooLong := fun e =>
  inferInstanceAs (Decidable (4300 < e.line.length ∨ 4300 < e.column.length))

/-- The edge shows a call at a number that is too long. -/
def Refused (e : Edge) : Prop := e.call?.isSome ∧ e.TooLong

theorem siteOf_match {e : Edge} {m : Pattern.Match Part} (hm : ∀ p, m.get p = e.field p) :
    (e.TooLong → ∃ cause, siteOf m = .error cause) ∧ (¬e.TooLong → siteOf m = .ok e.site) := by
  rw [siteOf, hm .line, hm .column, field, field, number_eq e.line_isNumeral,
    number_eq e.column_isNumeral]
  by_cases hl : 4300 < e.line.length <;> by_cases hc : 4300 < e.column.length
  all_goals simp only [hl, hc, if_true, if_false, TooLong]
  · exact ⟨fun _ => ⟨_, rfl⟩, fun h => absurd (.inl trivial) h⟩
  · exact ⟨fun _ => ⟨_, rfl⟩, fun h => absurd (.inl trivial) h⟩
  · exact ⟨fun _ => ⟨_, rfl⟩, fun h => absurd (.inr trivial) h⟩
  · exact ⟨fun h => (h.elim id id).elim, fun _ => rfl⟩

end Edge

/-- Adds a call to the graph. -/
def add (g : CallGraph) (c : KeyedCall) : CallGraph := g.addCall c.caller c.callee c.site

/-! ### Lines -/

/-- The lines write the edges in order, and lines that are no edges stand anywhere. -/
inductive Writes : List Edge → List String → Prop where
  | nil : Writes [] []
  | edge {es : List Edge} {lines : List String} (e : Edge) {ending : String}
      (hending : IsEnding ending) (h : Writes es lines) :
      Writes (e :: es) ((e.text ++ ending) :: lines)
  | other {es : List Edge} {lines : List String} {line : String}
      (hline : edge.match? (withoutLineEnds line) = none) (h : Writes es lines) :
      Writes es (line :: lines)

variable {es : List Edge} {lines : List String}

theorem addLine_of_match?_eq_none {line : String} (g : Reading)
    (h : edge.match? (withoutLineEnds line) = none) : addLine g line = .ok g := by
  rw [addLine, h]

/-- **What an edge does.**  A call at a number that is too long is refused; otherwise the call, if
the edge stands for one, is added. -/
theorem addLine_text (e : Edge) {ending : String} (hending : IsEnding ending) (g : Reading) :
    (e.Refused → ∃ refusal, addLine g (e.text ++ ending) = .error refusal) ∧
    (¬e.Refused → ∃ events, addLine g (e.text ++ ending) =
      .ok ⟨e.call?.toList.foldl add g.graph, events⟩) := by
  obtain ⟨m, hm, hfield⟩ := e.match?_text
  obtain ⟨herror, hok⟩ := Edge.siteOf_match hfield
  rw [addLine, e.withoutLineEnds_text hending, hm, Edge.Refused]
  simp only [hfield .caller, hfield .callee, Edge.field, Edge.call?]
  cases FunctionName.key? e.caller with
  | none => exact ⟨fun h => absurd h.1 (by simp), fun _ => ⟨_, rfl⟩⟩
  | some caller =>
      cases FunctionName.key? e.callee with
      | none => exact ⟨fun h => absurd h.1 (by simp), fun _ => ⟨_, rfl⟩⟩
      | some callee =>
          refine ⟨fun h => ?_, fun h => ?_⟩
          · obtain ⟨cause, hsite⟩ := herror h.2
            exact ⟨⟨cause, g.events⟩, by simp only [hsite]⟩
          · have hsite := hok fun hlong => h ⟨rfl, hlong⟩
            exact ⟨g.events, by simp only [hsite]; rfl⟩

/-- Lines with a refused edge cannot be read. -/
theorem foldlM_addLine_error (h : Writes es lines) (hrefused : ∃ e ∈ es, e.Refused)
    (g : Reading) : ∃ refusal, lines.foldlM addLine g = .error refusal := by
  induction h generalizing g with
  | nil => simp at hrefused
  | other hline h ih =>
      rw [List.foldlM_cons, addLine_of_match?_eq_none g hline]
      exact ih hrefused g
  | @edge es lines e ending hending h ih =>
      obtain ⟨herror, hok⟩ := addLine_text e hending g
      rw [List.foldlM_cons]
      by_cases he : e.Refused
      · obtain ⟨refusal, hstep⟩ := herror he
        exact ⟨refusal, by rw [hstep]; rfl⟩
      · obtain ⟨events, hstep⟩ := hok he
        rw [hstep]
        exact ih (((List.exists_mem_cons_iff ..).mp hrefused).resolve_left he) _

/-- Other lines add their calls in order. -/
theorem foldlM_addLine_ok (h : Writes es lines) (hrefused : ∀ e ∈ es, ¬e.Refused) (g : Reading) :
    ∃ events, lines.foldlM addLine g =
      .ok ⟨(es.filterMap Edge.call?).foldl add g.graph, events⟩ := by
  induction h generalizing g with
  | nil => exact ⟨g.events, rfl⟩
  | other hline h ih =>
      rw [List.foldlM_cons, addLine_of_match?_eq_none g hline]
      exact ih hrefused g
  | @edge es lines e ending hending h ih =>
      obtain ⟨he, hrest⟩ := List.forall_mem_cons.mp hrefused
      obtain ⟨events, hstep⟩ := (addLine_text e hending g).2 he
      have hcalls : (e :: es).filterMap Edge.call? = e.call?.toList ++ es.filterMap Edge.call? := by
        rw [List.filterMap_cons]
        cases e.call? <;> rfl
      rw [List.foldlM_cons, hstep, hcalls, List.foldl_append]
      exact ih hrest _

/-! ### Groups -/

/-- The graph has the calls, grouped by caller and callee in order of first appearance, each group
in order. -/
structure Groups (calls : List KeyedCall) (g : CallGraph) : Prop where
  callers : g.keys = distinct (calls.map KeyedCall.caller)
  callees : ∀ caller row, g.get? caller = some row →
    row.keys = distinct ((calls.filter (·.caller = caller)).map KeyedCall.callee)
  sites : ∀ caller callee, ((g.get? caller).bind (·.get? callee)).getD [] =
    (calls.filter fun c => c.caller = caller ∧ c.callee = callee).map KeyedCall.site
  /-- No call is lost. -/
  total : (g.values.map fun row => (row.values.map List.length).sum).sum = calls.length

/-- **Added one by one, calls are grouped.** -/
theorem groups_foldl_add (calls : List KeyedCall) : Groups calls (calls.foldl add empty) := by
  have hgroup : calls.foldl add empty =
      Ledger.group KeyedCall.caller KeyedCall.callee KeyedCall.site calls := rfl
  rw [hgroup]
  refine ⟨Ledger.keys_gather .., fun caller row hrow => (Ledger.of_get?_group _ _ _ hrow).2,
    fun caller callee => ?_, Ledger.sum_values_group ..⟩
  rw [Ledger.get?_group]
  split
  · rename_i hnil
    rw [hnil]
    rfl
  · rfl

/-- **Reading undoes writing.**  Lines that write edges are refused iff a call among them stands at
a number that is too long; otherwise the graph has exactly the calls of the edges, grouped by
caller and callee. -/
theorem ofLines_of_writes (h : Writes es lines) :
    ((∃ refusal, ofLines lines = .error refusal) ↔ ∃ e ∈ es, e.call?.isSome ∧ e.TooLong) ∧
    ((¬∃ e ∈ es, e.call?.isSome ∧ e.TooLong) →
      ∃ g, ofLines lines = .ok g ∧ Groups (es.filterMap Edge.call?) g.graph) := by
  have hok : (¬∃ e ∈ es, e.Refused) → ∃ events,
      ofLines lines = .ok ⟨(es.filterMap Edge.call?).foldl add empty, events⟩ := fun hrefused =>
    foldlM_addLine_ok h (fun e he hlong => hrefused ⟨e, he, hlong⟩) {}
  refine ⟨⟨?_, fun hrefused => foldlM_addLine_error h hrefused {}⟩, fun hrefused => ?_⟩
  · rintro ⟨refusal, hrefusal⟩
    by_contra hrefused
    obtain ⟨events, hread⟩ := hok hrefused
    rw [hread] at hrefusal
    cases hrefusal
  · obtain ⟨events, hread⟩ := hok hrefused
    exact ⟨_, hread, groups_foldl_add _⟩

/-- A marker that looks like numbers, and a column in digits of another script. -/
def printed : Edge where
  caller := "(*main.T).run"
  marker := "dynamic-3:14-->"
  line := "10"
  column := "٧"
  callee := "fmt.Println"

/-- A caller without a key. -/
def rootless : Edge where
  caller := "init"
  marker := "static"
  line := "1"
  column := "1"
  callee := "fmt.Println"

/-- Edges under line ends of several kinds, with a heading. -/
theorem ofLines_of_writes_printed : ∃ g,
    ofLines ["calls:\n",
      "(*main.T).run\t--dynamic-3:14-->-10:٧-->\tfmt.Println\r\n",
      "init\t--static-1:1-->\tfmt.Println\n",
      "(*main.T).run\t--dynamic-3:14-->-10:٧-->\tfmt.Println"] = .ok g ∧
    Groups [⟨"main:T:run", "fmt:Println", ⟨10, 7⟩⟩, ⟨"main:T:run", "fmt:Println", ⟨10, 7⟩⟩]
      g.graph := by
  have hw : Writes [printed, rootless, printed]
      ["calls:\n", printed.text ++ "\r\n", rootless.text ++ "\n", printed.text ++ ""] :=
    .other (by decide +kernel)
      (.edge _ (by decide) (.edge _ (by decide) (.edge _ (by decide) .nil)))
  obtain ⟨-, hread⟩ := ofLines_of_writes hw
  have hcalls : [printed, rootless, printed].filterMap Edge.call? =
      [⟨"main:T:run", "fmt:Println", ⟨10, 7⟩⟩, ⟨"main:T:run", "fmt:Println", ⟨10, 7⟩⟩] := by
    decide +kernel
  rw [hcalls] at hread
  exact hread (by decide)

end ThreatModel.CallGraph
