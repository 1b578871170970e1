import ThreatModel.Proofs.Component.Findings
import ThreatModel.Proofs.Ledger
import ThreatModel.Proofs.Runs

/-!
# Asking — the record of a threat to a component

`ComponentTable.threat` gives the record of a threat, and puts an empty one into the table if the
component has none.  It has an answer if and only if the component is there (`exists_threat_iff`).
The table keeps its components and what they list; all that may be new is that one empty record
(`threat_answers`).  So however often a table is asked, it gives the answers that it gave at first
(`answers_run`).
-/

namespace ThreatModel.ComponentTable

/-- The record of a threat to a component, if there is one. -/
def record? (t : ComponentTable) (key name : String) : Option ThreatRecord :=
  (t.get? key).bind fun c => c.threats.get? name

/-- The record of a threat to a component; an empty one if there is none. -/
def recordOr (t : ComponentTable) (key name : String) : ThreatRecord := (t.record? key name).getD {}

/-- The number of mitigations and exposures that the table lists. -/
def total (t : ComponentTable) : Nat := (t.values.map Component.size).sum

/-- The second table is the first one but for records that are empty. -/
structure Keeps (t u : ComponentTable) : Prop where
  keys : u.keys = t.keys
  recordOr : ∀ key name, u.recordOr key name = t.recordOr key name
  place : ∀ key, (u.get? key).map Component.place = (t.get? key).map Component.place
  actions : ∀ key, (u.get? key).map Component.actions = (t.get? key).map Component.actions
  total : u.total = t.total

variable {t u v : ComponentTable} {key name : String} {r : ThreatRecord} {c : Component}

theorem Keeps.refl (t : ComponentTable) : t.Keeps t :=
  ⟨rfl, fun _ _ => rfl, fun _ => rfl, fun _ => rfl, rfl⟩

theorem Keeps.trans (h : t.Keeps u) (h' : u.Keeps v) : t.Keeps v where
  keys := h'.keys.trans h.keys
  recordOr key name := (h'.recordOr key name).trans (h.recordOr key name)
  place key := (h'.place key).trans (h.place key)
  actions key := (h'.actions key).trans (h.actions key)
  total := h'.total.trans h.total

theorem threat_eq_ok_iff : t.threat key name = .ok (r, u) ↔
    ∃ c, t.get? key = some c ∧ r = (c.threats.get? name).getD {} ∧
      u = t.insert key (c.alterThreat name id) := by
  rw [threat]
  cases t.get? key with
  | none => exact ⟨nofun, fun ⟨_, h, _⟩ => nomatch h⟩
  | some c =>
      simp only [Except.ok.injEq, Prod.mk.injEq, Option.some.injEq, exists_eq_left', eq_comm (a := r),
        eq_comm (a := u)]
      rfl

/-- **There is an answer exactly for the components of the table.** -/
theorem exists_threat_iff : (∃ r u, t.threat key name = .ok (r, u)) ↔ key ∈ t.keys := by
  rw [Ledger.mem_keys_iff]
  constructor
  · rintro ⟨r, u, h⟩
    obtain ⟨c, hc, -⟩ := threat_eq_ok_iff.mp h
    exact ⟨c, hc⟩
  · rintro ⟨c, hc⟩
    exact ⟨_, _, threat_eq_ok_iff.mpr ⟨c, hc, rfl, rfl⟩⟩

theorem size_alterThreat_id (c : Component) (name : String) :
    (c.alterThreat name id).size = c.size := by
  refine Ledger.sum_values_alter (n := 0) c.threats name ?_
  cases c.threats.get? name <;> rfl

/-- **An answer is what the table lists, and asking changes nothing that is listed.** -/
theorem threat_answers (h : t.threat key name = .ok (r, u)) :
    r = t.recordOr key name ∧ u.record? key name = some r ∧ t.Keeps u := by
  obtain ⟨c, hc, rfl, rfl⟩ := threat_eq_ok_iff.mp h
  have hget (key' : String) := Ledger.get?_insert t key key' (c.alterThreat name id)
  have hrecord (name' : String) : (c.alterThreat name id).threats.get? name' =
      if name = name' then some ((c.threats.get? name).getD {}) else c.threats.get? name' :=
    Ledger.get?_alter c.threats name name' _
  refine ⟨?_, ?_, ?_, fun key' name' => ?_, fun key' => ?_, fun key' => ?_, ?_⟩
  · rw [recordOr, record?, hc, Option.bind_some]
  · rw [record?, hget, if_pos rfl, Option.bind_some, hrecord, if_pos rfl]
  · rw [Ledger.keys_insert, if_pos (Ledger.mem_keys_iff.mpr ⟨c, hc⟩)]
  · rw [recordOr, recordOr, record?, record?, hget]
    by_cases hkey : key = key'
    · subst hkey
      rw [if_pos rfl, hc, Option.bind_some, Option.bind_some, hrecord]
      by_cases hname : name = name'
      · subst hname
        rw [if_pos rfl, Option.getD_some]
      · rw [if_neg hname]
    · rw [if_neg hkey]
  · rw [hget]
    split
    · rename_i hkey
      rw [← hkey, hc]
      rfl
    · rfl
  · rw [hget]
    split
    · rename_i hkey
      rw [← hkey, hc]
      rfl
    · rfl
  · refine Ledger.sum_values_alter (n := 0) t key ?_
    rw [hc, size_alterThreat_id]
    rfl

/-- Asks for the records of several threats, one after another. -/
def askAll : ComponentTable → List (String × String) →
    Except MissingKey (List ThreatRecord × ComponentTable)
  | t, []                    => .ok ([], t)
  | t, (key, name) :: others => do
    let (r, t) ← t.threat key name
    let (rs, t) ← askAll t others
    return (r :: rs, t)

theorem askAll_cons_eq_ok {others : List (String × String)} {rs : List ThreatRecord}
    (h : t.askAll ((key, name) :: others) = .ok (rs, u)) :
    ∃ r t' rs', t.threat key name = .ok (r, t') ∧ t'.askAll others = .ok (rs', u) ∧
      rs = r :: rs' := by
  rw [askAll, bind_eq_ok_iff] at h
  obtain ⟨⟨r, t'⟩, hfirst, h⟩ := h
  obtain ⟨⟨rs', u'⟩, hothers, h⟩ := bind_eq_ok_iff.mp h
  cases h
  exact ⟨r, t', rs', hfirst, hothers, rfl⟩

/-- **However often a table is asked, its answers are those it gave at first.** -/
theorem answers_run {asked : List (String × String)} {rs : List ThreatRecord}
    (h : t.askAll asked = .ok (rs, u)) :
    rs = asked.map (fun (key, name) => t.recordOr key name) ∧ t.Keeps u := by
  induction asked generalizing t rs with
  | nil =>
      cases h
      exact ⟨rfl, .refl _⟩
  | cons a asked ih =>
      obtain ⟨r, t', rs', hfirst, hothers, rfl⟩ := askAll_cons_eq_ok h
      obtain ⟨hr, -, hkeeps⟩ := threat_answers hfirst
      obtain ⟨hrs, hkeeps'⟩ := ih hothers
      refine ⟨?_, hkeeps.trans hkeeps'⟩
      rw [List.map_cons, hrs, hr]
      simp only [hkeeps.recordOr]

end ThreatModel.ComponentTable
