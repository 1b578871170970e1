import ThreatModel.Proofs.CallGraph.Grouping

/-!
# Repetition — lines that come again change no caller and no callee

A line shows a call or none, or it is refused, whatever was read before it (`callIn`), and reading
adds the calls of the lines one after the other (`foldlM_addLine_of_readable`).  When some of the
lines come again at the end, their calls are there already: the callers and the callees of each stay
as they are and in their order (`Alike`), and only more sites are listed.

* `ofText_of_repeated`: the same of texts.
-/

namespace ThreatModel.CallGraph

/-- Both graphs have the same callers, and each of them the same callees in the same order. -/
def Alike (g g' : CallGraph) : Prop :=
  ∀ caller, (g.get? caller).map Ledger.keys = (g'.get? caller).map Ledger.keys

/-! ### The call in a line -/

/-- The call that a line shows, if it shows one. -/
def callIn (line : String) : Except NumberTooLong (Option KeyedCall) :=
  match edge.match? (withoutLineEnds line) with
  | none   => .ok none
  | some m =>
    match FunctionName.key? (m.get .caller), FunctionName.key? (m.get .callee) with
    | some caller, some callee => (siteOf m).map fun site => some ⟨caller, callee, site⟩
    | _,           _           => .ok none

/-- The line can be read. -/
def Readable (line : String) : Prop := ∃ c?, callIn line = .ok c?

/-- The calls that lines show. -/
def callsIn (lines : List String) : List KeyedCall :=
  lines.filterMap fun line => (callIn line).toOption.join

/-- **A line is refused, or adds the call that it shows.** -/
theorem addLine_cases (g : Reading) (line : String) :
    (∃ cause, callIn line = .error cause ∧ addLine g line = .error ⟨cause, g.events⟩) ∨
      ∃ c? events, callIn line = .ok c? ∧
        addLine g line = .ok ⟨c?.toList.foldl add g.graph, events⟩ := by
  rw [callIn, addLine]
  cases edge.match? (withoutLineEnds line) with
  | none => exact .inr ⟨none, g.events, rfl, rfl⟩
  | some m =>
      dsimp only
      cases FunctionName.key? (m.get .caller) with
      | none => exact .inr ⟨none, _, rfl, rfl⟩
      | some caller =>
          cases FunctionName.key? (m.get .callee) with
          | none => exact .inr ⟨none, _, rfl, rfl⟩
          | some callee =>
              cases siteOf m with
              | error cause => exact .inl ⟨cause, rfl, rfl⟩
              | ok site => exact .inr ⟨some ⟨caller, callee, site⟩, g.events, rfl, rfl⟩

/-! ### Runs -/

variable {lines again : List String} {r : Reading}

/-- Lines that are read can be read, each by itself. -/
theorem readable_of_foldlM {g : Reading} (h : lines.foldlM addLine g = .ok r) :
    ∀ line ∈ lines, Readable line := by
  induction lines generalizing g with
  | nil => exact fun _ hline => absurd hline List.not_mem_nil
  | cons line lines ih =>
      obtain ⟨g₁, hfirst, hrest⟩ := bind_eq_ok_iff.mp (List.foldlM_cons.symm.trans h)
      refine List.forall_mem_cons.mpr ⟨?_, ih hrest⟩
      rcases addLine_cases g line with ⟨cause, -, herror⟩ | ⟨c?, events, hcall, -⟩
      · rw [herror] at hfirst
        cases hfirst
      · exact ⟨c?, hcall⟩

/-- **Lines that can be read add their calls**, one after the other. -/
theorem foldlM_addLine_of_readable (h : ∀ line ∈ lines, Readable line) (g : Reading) :
    ∃ events, lines.foldlM addLine g = .ok ⟨(callsIn lines).foldl add g.graph, events⟩ := by
  induction lines generalizing g with
  | nil => exact ⟨g.events, rfl⟩
  | cons line lines ih =>
      obtain ⟨⟨c?, hcall⟩, hrest⟩ := List.forall_mem_cons.mp h
      have hcalls : callsIn (line :: lines) = c?.toList ++ callsIn lines := by
        rw [callsIn, List.filterMap_cons, hcall]
        cases c? <;> rfl
      rcases addLine_cases g line with ⟨cause, herror, -⟩ | ⟨c?', events, hcall', hstep⟩
      · cases hcall.symm.trans herror
      · cases hcall.symm.trans hcall'
        rw [List.foldlM_cons, hstep, hcalls, List.foldl_append]
        exact ih hrest ⟨_, events⟩

/-- What is read are the calls of the lines. -/
theorem graph_ofLines (h : ofLines lines = .ok r) : r.graph = (callsIn lines).foldl add empty := by
  obtain ⟨events, hread⟩ := foldlM_addLine_of_readable (readable_of_foldlM h) {}
  cases h.symm.trans hread
  rfl

/-! ### Lines that come again -/

/-- Calls that come again change no caller and no callee. -/
theorem Groups.alike {calls more : List KeyedCall} {g g' : CallGraph} (h : Groups calls g)
    (h' : Groups (calls ++ more) g') (hmore : ∀ c ∈ more, c ∈ calls) : g.Alike g' := by
  have hcallers : g'.keys = g.keys := by
    rw [h.callers, h'.callers, List.map_append]
    exact distinct_append_of_subset fun a ha => by
      obtain ⟨c, hc, rfl⟩ := List.mem_map.mp ha
      exact List.mem_map_of_mem (hmore c hc)
  intro caller
  cases hrow : g.get? caller with
  | none =>
      rw [Ledger.get?_eq_none_iff, ← hcallers, ← Ledger.get?_eq_none_iff] at hrow
      rw [hrow]
  | some row =>
      obtain ⟨row', hrow'⟩ :=
        Ledger.mem_keys_iff.mp (hcallers ▸ Ledger.mem_keys_iff.mpr ⟨row, hrow⟩)
      rw [hrow', Option.map_some, Option.map_some, h.callees caller row hrow,
        h'.callees caller row' hrow', List.filter_append, List.map_append,
        distinct_append_of_subset]
      intro a ha
      obtain ⟨c, hc, rfl⟩ := List.mem_map.mp ha
      obtain ⟨hc, hcaller⟩ := List.mem_filter.mp hc
      exact List.mem_map_of_mem (List.mem_filter.mpr ⟨hmore c hc, hcaller⟩)

/-- **Lines that come again are read again**, and no caller and no callee is changed by them. -/
theorem ofLines_of_repeated (h : ofLines lines = .ok r) (hagain : ∀ line ∈ again, line ∈ lines) :
    ∃ r', ofLines (lines ++ again) = .ok r' ∧ r.graph.Alike r'.graph := by
  have hreadable : ∀ line ∈ lines ++ again, Readable line := fun line hline =>
    readable_of_foldlM h line ((List.mem_append.mp hline).elim id (hagain line))
  obtain ⟨events, hread⟩ := foldlM_addLine_of_readable hreadable {}
  have hcalls : callsIn (lines ++ again) = callsIn lines ++ callsIn again := List.filterMap_append
  have hgroups := groups_foldl_add (callsIn (lines ++ again))
  rw [hcalls] at hgroups hread
  refine ⟨_, hread, ?_⟩
  rw [graph_ofLines h]
  refine (groups_foldl_add (callsIn lines)).alike hgroups fun c hc => ?_
  obtain ⟨line, hline, hc⟩ := List.mem_filterMap.mp hc
  exact List.mem_filterMap.mpr ⟨line, hagain line hline, hc⟩

/-- The graph of a text is that of its lines. -/
theorem exists_ofText_iff {text : String} {g : CallGraph} :
    (∃ r, ofText text = .ok r ∧ r.graph = g) ↔
      ∃ r, ofLines ((Text.lines text.toList).map String.ofList) = .ok r ∧ r.graph = g := by
  rw [ofText]
  by_cases hempty : text = ""
  · subst hempty
    rfl
  · rw [if_neg hempty]
    constructor
    · rintro ⟨r, hr, rfl⟩
      obtain ⟨r₀, hr₀, hr⟩ := bind_eq_ok_iff.mp hr
      cases hr
      exact ⟨r₀, hr₀, rfl⟩
    · rintro ⟨r, hr, rfl⟩
      exact ⟨_, bind_eq_ok_iff.mpr ⟨r, hr, rfl⟩, rfl⟩

/-- **A text is read as well with some of its lines again at its end**, and no caller and no callee
is changed by them. -/
theorem ofText_of_repeated {text text' : String} {again : List (List Char)}
    (h : ofText text = .ok r)
    (hlines : Text.lines text'.toList = Text.lines text.toList ++ again)
    (hagain : ∀ line ∈ again, line ∈ Text.lines text.toList) :
    ∃ r', ofText text' = .ok r' ∧ r.graph.Alike r'.graph := by
  obtain ⟨r₀, hr₀, hgraph⟩ := exists_ofText_iff.mp ⟨r, h, rfl⟩
  have hmem : ∀ line ∈ again.map String.ofList,
      line ∈ (Text.lines text.toList).map String.ofList := fun line hline => by
    obtain ⟨l, hl, rfl⟩ := List.mem_map.mp hline
    exact List.mem_map_of_mem (hagain l hl)
  obtain ⟨r₁, hr₁, halike⟩ := ofLines_of_repeated hr₀ hmem
  rw [← List.map_append, ← hlines] at hr₁
  obtain ⟨r', hr', hgraph'⟩ := exists_ofText_iff.mpr ⟨r₁, hr₁, rfl⟩
  exact ⟨r', hr', by rwa [hgraph', ← hgraph]⟩

end ThreatModel.CallGraph
