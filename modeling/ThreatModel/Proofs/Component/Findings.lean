import Mathlib.Data.List.Basic
import ThreatModel.Proofs.Component

/-!
# Findings — the component table is the facts of the functions, gathered

* `gathers_analyze`: the table of any facts has an entry for each place that a fact is about, where
  it first comes and in its first spelling; under each threat the entry lists the mitigations and
  exposures of the functions of the table, in order, and nothing is listed twice or lost.

All facts of the functions, in the order in which they are added, are the findings (`findings`).
The table gathers them by component (`analyze_eq_gather`), and each component gathers its own by
threat (`threats_foldl_add`), so both levels are read off `Ledger.get?_gather`.
-/

namespace ThreatModel

/-! ### Findings in order -/

/-- A mitigation or an exposure, with the function it comes from. -/
inductive ThreatFinding where
  | mitigation (p : Provenance)
  | exposure (p : Provenance)

/-- A fact that the component table takes in. -/
inductive Finding where
  | threat (t : ThreatFinding)
  | capability (c : Capability)

namespace ThreatFinding

def provenance : ThreatFinding → Provenance
  | mitigation p => p
  | exposure p   => p

/-- The threat that the finding concerns. -/
def name (t : ThreatFinding) : String := t.provenance.fact.threat

def mitigation? : ThreatFinding → Option Provenance
  | mitigation p => some p
  | exposure _   => none

def exposure? : ThreatFinding → Option Provenance
  | mitigation _ => none
  | exposure p   => some p

end ThreatFinding

namespace Finding

def place : Finding → Place
  | threat t     => t.provenance.fact.place
  | capability c => c.place

def threat? : Finding → Option ThreatFinding
  | threat t     => some t
  | capability _ => none

def action? : Finding → Option String
  | threat _     => none
  | capability c => some c.action

end Finding

/-- The findings of a function, in the order in which they are added to the table. -/
def FunctionRecord.findings (key : String) (r : FunctionRecord) : List Finding :=
  r.mitigations.map (fun m => .threat (.mitigation ⟨m, key, r.site⟩)) ++
    r.exposures.map (fun e => .threat (.exposure ⟨e, key, r.site⟩)) ++
    r.capabilities.map .capability

/-- The places that a function's findings are about. -/
def FunctionRecord.places (r : FunctionRecord) : List Place :=
  r.mitigations.map ThreatFact.place ++ r.exposures.map ThreatFact.place ++
    r.capabilities.map Capability.place

namespace Facts

/-- The findings of the functions of the table. -/
def findings (f : Facts) : List Finding := f.functions.flatMap fun (key, r) => r.findings key

/-- The places that the findings of the functions of the table are about. -/
def places (f : Facts) : List Place := f.functions.flatMap fun (_, r) => r.places

theorem map_place_findings (f : Facts) : f.findings.map Finding.place = f.places := by
  rw [findings, List.map_flatMap]
  refine List.flatMap_congr fun e _ => ?_
  simp only [FunctionRecord.findings, FunctionRecord.places, List.map_append, List.map_map]
  rfl

end Facts

/-! ### Gathering -/

/-- Adds a finding to the record of its threat. -/
def ThreatRecord.add (r : ThreatRecord) : ThreatFinding → ThreatRecord
  | .mitigation p => { r with mitigations := r.mitigations ++ [p] }
  | .exposure p   => { r with exposures := r.exposures ++ [p] }

namespace Component

/-- A component of which nothing is known but where it is. -/
def blank (place : Place) : Component := { key := place.key, place := place }

/-- Adds a finding to its component. -/
def add (c : Component) : Finding → Component
  | .threat t     => c.alterThreat t.name fun r => r.add t
  | .capability a => { c with actions := c.actions ++ [a.action] }

end Component

namespace ComponentTable

/-- Adds a finding to the table. -/
def addFinding (t : ComponentTable) (x : Finding) : ComponentTable :=
  t.alter x.place.key fun c => (c.getD (.blank x.place)).add x

theorem addFunction_eq (t : ComponentTable) (key : String) (r : FunctionRecord) :
    t.addFunction key r = (r.findings key).foldl addFinding t := by
  rw [FunctionRecord.findings, List.foldl_append, List.foldl_append, List.foldl_map,
    List.foldl_map, List.foldl_map]
  rfl

/-- **The table is the findings, gathered by component.** -/
theorem analyze_eq_gather (f : Facts) :
    analyze f = Ledger.gather (·.place.key) (.blank ·.place) Component.add f.findings := by
  have hfoldl : ∀ t : ComponentTable, f.functions.foldl (fun t e => t.addFunction e.1 e.2) t =
      f.findings.foldl addFinding t := by
    intro t
    rw [Facts.findings]
    induction f.functions generalizing t with
    | nil => rfl
    | cons e functions ih =>
        rw [List.foldl_cons, ih, addFunction_eq, List.flatMap_cons, List.foldl_append]
  exact hfoldl .empty

end ComponentTable

namespace ThreatRecord

theorem foldl_add (ts : List ThreatFinding) (r : ThreatRecord) :
    ts.foldl add r = ⟨r.mitigations ++ ts.filterMap ThreatFinding.mitigation?,
      r.exposures ++ ts.filterMap ThreatFinding.exposure?⟩ := by
  induction ts generalizing r with
  | nil => simp
  | cons t ts ih =>
      cases t <;>
        simp [ih, add, List.filterMap_cons, ThreatFinding.mitigation?, ThreatFinding.exposure?]

end ThreatRecord

namespace Component

theorem key_foldl_add (xs : List Finding) (c : Component) : (xs.foldl add c).key = c.key :=
  eq_foldl key (fun _ x => by cases x <;> rfl) xs c

theorem place_foldl_add (xs : List Finding) (c : Component) : (xs.foldl add c).place = c.place :=
  eq_foldl place (fun _ x => by cases x <;> rfl) xs c

theorem actions_foldl_add (xs : List Finding) (c : Component) :
    (xs.foldl add c).actions = c.actions ++ xs.filterMap Finding.action? := by
  induction xs generalizing c with
  | nil => simp
  | cons x xs ih => cases x <;> simp [ih, add, alterThreat, List.filterMap_cons, Finding.action?]

/-- A component gathers its findings by threat. -/
theorem threats_foldl_add (xs : List Finding) (place : Place) :
    (xs.foldl add (blank place)).threats =
      Ledger.gather ThreatFinding.name (fun _ => {}) ThreatRecord.add
        (xs.filterMap Finding.threat?) := by
  have hfoldl : ∀ c : Component, (xs.foldl add c).threats =
      (xs.filterMap Finding.threat?).foldl
        (fun l t => l.alter t.name fun r => (r.getD {}).add t) c.threats := by
    induction xs with
    | nil => exact fun _ => rfl
    | cons x xs ih => cases x <;> exact fun c => ih _
  exact hfoldl _

/-- The number of mitigations and exposures that the component lists. -/
def size (c : Component) : Nat :=
  (c.threats.values.map fun r => r.mitigations.length + r.exposures.length).sum

theorem size_add (c : Component) (x : Finding) :
    (c.add x).size = c.size + x.threat?.toList.length := by
  cases x with
  | capability a => rfl
  | threat t =>
      refine Ledger.sum_values_alter c.threats t.name ?_
      cases c.threats.get? t.name <;> cases t <;>
        simp [ThreatRecord.add, Finding.threat?] <;> omega

end Component

/-! ### The table -/

/-- The component of a key lists what the functions of the table say of it. -/
structure Component.Gathers (f : Facts) (key : String) (c : Component) : Prop where
  key_eq : c.key = key
  key_place : c.place.key = key
  /-- The spelling is that of the first fact. -/
  first : f.places.find? (·.key = key) = some c.place
  mitigations : ∀ threat, ((c.threats.get? threat).getD {}).mitigations =
    f.functions.flatMap fun (function, r) =>
      (r.mitigations.filter fun m => m.place.key = key ∧ m.threat = threat).map fun m =>
        ⟨m, function, r.site⟩
  exposures : ∀ threat, ((c.threats.get? threat).getD {}).exposures =
    f.functions.flatMap fun (function, r) =>
      (r.exposures.filter fun e => e.place.key = key ∧ e.threat = threat).map fun e =>
        ⟨e, function, r.site⟩
  actions : c.actions = f.functions.flatMap fun (_, r) =>
    (r.capabilities.filter fun a => a.place.key = key).map Capability.action
  /-- No threat is listed without a mitigation or an exposure. -/
  nonempty : ∀ threat record, c.threats.get? threat = some record →
    record.mitigations ≠ [] ∨ record.exposures ≠ []

namespace Facts

variable (f : Facts) (key threat : String)

/-- The findings about a component. -/
def findingsAt : List Finding := f.findings.filter fun x => x.place.key = key

/-- The findings about a component that concern a threat. -/
def threatFindingsAt : List ThreatFinding :=
  ((f.findingsAt key).filterMap Finding.threat?).filter fun t => t.name = threat

theorem mitigations_threatFindingsAt :
    (f.threatFindingsAt key threat).filterMap ThreatFinding.mitigation? =
      f.functions.flatMap fun (function, r) =>
        (r.mitigations.filter fun m => m.place.key = key ∧ m.threat = threat).map fun m =>
          ⟨m, function, r.site⟩ := by
  simp only [threatFindingsAt, findingsAt, findings, List.filter_flatMap, List.filterMap_flatMap]
  refine List.flatMap_congr fun e _ => ?_
  simp only [FunctionRecord.findings, List.filter_append, List.filter_map, List.filterMap_append,
    List.filterMap_map, Function.comp_def, Function.comp_apply, Finding.threat?, Finding.place,
    ThreatFinding.mitigation?, ThreatFinding.name, ThreatFinding.provenance,
    List.filterMap_eq_map', List.filterMap_none, List.append_nil, List.filter_filter,
    Bool.decide_and, Bool.and_comm]
  rfl

theorem exposures_threatFindingsAt :
    (f.threatFindingsAt key threat).filterMap ThreatFinding.exposure? =
      f.functions.flatMap fun (function, r) =>
        (r.exposures.filter fun e => e.place.key = key ∧ e.threat = threat).map fun e =>
          ⟨e, function, r.site⟩ := by
  simp only [threatFindingsAt, findingsAt, findings, List.filter_flatMap, List.filterMap_flatMap]
  refine List.flatMap_congr fun e _ => ?_
  simp only [FunctionRecord.findings, List.filter_append, List.filter_map, List.filterMap_append,
    List.filterMap_map, Function.comp_def, Function.comp_apply, Finding.threat?, Finding.place,
    ThreatFinding.exposure?, ThreatFinding.name, ThreatFinding.provenance,
    List.filterMap_eq_map', List.filterMap_none, List.append_nil, List.nil_append,
    List.filter_filter, Bool.decide_and, Bool.and_comm]
  rfl

theorem actions_findingsAt :
    (f.findingsAt key).filterMap Finding.action? = f.functions.flatMap fun (_, r) =>
      (r.capabilities.filter fun a => a.place.key = key).map Capability.action := by
  simp only [findingsAt, findings, List.filter_flatMap, List.filterMap_flatMap]
  refine List.flatMap_congr fun e _ => ?_
  simp only [FunctionRecord.findings, List.filter_append, List.filter_map, List.filterMap_append,
    List.filterMap_map, Function.comp_def, Function.comp_apply, Finding.action?, Finding.place,
    List.filterMap_eq_map', List.filterMap_none, List.nil_append]
  rfl

theorem find?_places :
    f.places.find? (fun p => p.key = key) = (f.findingsAt key).head?.map Finding.place := by
  rw [← map_place_findings, List.find?_map, findingsAt, List.head?_filter]
  rfl

end Facts

theorem Component.gathers_of_get? {f : Facts} {key : String} {c : Component}
    (h : (ComponentTable.analyze f).get? key = some c) : c.Gathers f key := by
  rw [ComponentTable.analyze_eq_gather, Ledger.get?_gather, Option.map_eq_some_iff] at h
  obtain ⟨x, hx, rfl⟩ := h
  have hx : (f.findingsAt key).head? = some x := hx
  have hkey : x.place.key = key := by
    have hmem := List.mem_filter.mp (List.mem_of_mem_head? hx)
    exact of_decide_eq_true hmem.2
  have hrecord : ∀ threat, (((f.findingsAt key).foldl add (blank x.place)).threats.get? threat) =
      (f.threatFindingsAt key threat).head?.map fun _ =>
        (f.threatFindingsAt key threat).foldl ThreatRecord.add {} := by
    intro threat
    rw [threats_foldl_add, Ledger.get?_gather]
    rfl
  have hthreats : ∀ threat,
      (((f.findingsAt key).foldl add (blank x.place)).threats.get? threat).getD {} =
        (f.threatFindingsAt key threat).foldl ThreatRecord.add {} := by
    intro threat
    rw [hrecord]
    cases f.threatFindingsAt key threat <;> rfl
  refine ⟨?_, ?_, ?_, fun threat => ?_, fun threat => ?_, ?_, fun threat record hget => ?_⟩
  · exact (key_foldl_add ..).trans hkey
  · exact (congrArg Place.key (place_foldl_add ..)).trans hkey
  · rw [Facts.find?_places, hx]
    exact congrArg some (place_foldl_add (f.findingsAt key) (blank x.place)).symm
  · rw [← Facts.mitigations_threatFindingsAt]
    exact (congrArg ThreatRecord.mitigations (hthreats threat)).trans
      (congrArg ThreatRecord.mitigations (ThreatRecord.foldl_add ..))
  · rw [← Facts.exposures_threatFindingsAt]
    exact (congrArg ThreatRecord.exposures (hthreats threat)).trans
      (congrArg ThreatRecord.exposures (ThreatRecord.foldl_add ..))
  · rw [← Facts.actions_findingsAt]
    exact actions_foldl_add ..
  · -- a threat is listed for its first finding, and that one is in its record
    have hget : ((f.findingsAt key).foldl add (blank x.place)).threats.get? threat = some record :=
      hget
    rw [hrecord, Option.map_eq_some_iff] at hget
    obtain ⟨t, ht, rfl⟩ := hget
    have hmem := List.mem_of_mem_head? ht
    rw [ThreatRecord.foldl_add]
    cases t with
    | mitigation p =>
        exact .inl (List.ne_nil_of_mem (List.mem_filterMap.mpr ⟨_, hmem, rfl⟩))
    | exposure p =>
        exact .inr (List.ne_nil_of_mem (List.mem_filterMap.mpr ⟨_, hmem, rfl⟩))

namespace ComponentTable

/-- The table lists what the functions of the table say, each fact once and in its place. -/
structure Gathers (f : Facts) (t : ComponentTable) : Prop where
  mem_keys : ∀ key, key ∈ t.keys ↔ ∃ function r, (function, r) ∈ f.functions ∧
    ((∃ m ∈ r.mitigations, key = m.place.key) ∨ (∃ e ∈ r.exposures, key = e.place.key) ∨
      ∃ c ∈ r.capabilities, key = c.place.key)
  /-- A component stands where it is first spoken of. -/
  order : t.keys = distinct (f.places.map Place.key)
  component : ∀ key c, t.get? key = some c → c.Gathers f key
  /-- As many mitigations and exposures are listed as the functions have. -/
  total : (t.values.map Component.size).sum =
    (f.functions.map fun (_, r) => r.mitigations.length + r.exposures.length).sum

theorem sum_size_analyze (f : Facts) : ((analyze f).values.map Component.size).sum =
    (f.functions.map fun (_, r) => r.mitigations.length + r.exposures.length).sum := by
  rw [analyze_eq_gather, Ledger.sum_values_gather Component.size (fun _ => rfl) Component.size_add,
    Facts.findings]
  induction f.functions with
  | nil => rfl
  | cons e functions ih =>
      rw [List.flatMap_cons, List.map_append, List.sum_append, ih, List.map_cons, List.sum_cons]
      simp [FunctionRecord.findings, Function.comp_def, Finding.threat?]

/-- **The component table loses, doubles and misplaces nothing.**  It has an entry for each place
that a function of the table has a fact about, where the first such fact comes and in its spelling;
the entry lists the mitigations and exposures of the functions by threat, and their actions, in
order; no threat is listed for nothing, and all facts are listed. -/
theorem gathers_analyze (f : Facts) : (analyze f).Gathers f where
  mem_keys key := by
    simp only [mem_keys_analyze, FunctionRecord.mem_componentKeys_iff]
  order := by
    rw [analyze_eq_gather, Ledger.keys_gather, ← Facts.map_place_findings, List.map_map]
    rfl
  component _ _ h := Component.gathers_of_get? h
  total := sum_size_analyze f

end ComponentTable

end ThreatModel
