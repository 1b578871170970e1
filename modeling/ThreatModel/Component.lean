import ThreatModel.Facts.Basic

/-!
# Components — the facts of a set of sources, place by place

The component table gathers the mitigations, exposures and actions of all functions of the table by the key of their place.
A component bears the spelling of the first fact about it; its facts are gathered by threat, each with the function it
comes from and the site of that function.

* `analyze`: the table of a set of facts.
* `ComponentTable.threat`: the record of one threat to a component.
-/

namespace ThreatModel

/-- A fact, the key of its function, and where that function was found. -/
structure Provenance where
  fact : ThreatFact
  function : String
  site : Option CodeSite
deriving DecidableEq, Repr

/-- What is known about one threat to a component. -/
structure ThreatRecord where
  mitigations : List Provenance := []
  exposures : List Provenance := []
deriving DecidableEq, Repr

/-- A place with what is known about it. -/
structure Component where
  key : String
  place : Place
  threats : Ledger String ThreatRecord := .empty
  actions : List String := []

/-- The components by key, in order of their first fact. -/
abbrev ComponentTable : Type := Ledger String Component

namespace Component

/-- The component there is, or a new one for the place. -/
def orNew (place : Place) (c : Option Component) : Component := c.getD { key := place.key, place := place }

/-- Changes the record of a threat, which is empty at first. -/
def alterThreat (c : Component) (threat : String) (change : ThreatRecord → ThreatRecord) : Component :=
  { c with threats := c.threats.alter threat fun t => change (t.getD {}) }

end Component

namespace ComponentTable

/-- Adds a mitigation. -/
def addMitigation (t : ComponentTable) (p : Provenance) : ComponentTable :=
  t.alter p.fact.place.key fun c =>
    (Component.orNew p.fact.place c).alterThreat p.fact.threat fun r => { r with mitigations := r.mitigations ++ [p] }

/-- Adds an exposure. -/
def addExposure (t : ComponentTable) (p : Provenance) : ComponentTable :=
  t.alter p.fact.place.key fun c =>
    (Component.orNew p.fact.place c).alterThreat p.fact.threat fun r => { r with exposures := r.exposures ++ [p] }

/-- Adds an action. -/
def addCapability (t : ComponentTable) (a : Capability) : ComponentTable :=
  t.alter a.place.key fun c =>
    let c := Component.orNew a.place c
    { c with actions := c.actions ++ [a.action] }

/-- Adds the facts of a function: its mitigations, its exposures, its capabilities. -/
def addFunction (t : ComponentTable) (key : String) (r : FunctionRecord) : ComponentTable :=
  let t := r.mitigations.foldl (fun t m => t.addMitigation ⟨m, key, r.site⟩) t
  let t := r.exposures.foldl (fun t e => t.addExposure ⟨e, key, r.site⟩) t
  r.capabilities.foldl addCapability t

/-- The table of a set of facts. -/
def analyze (f : Facts) : ComponentTable :=
  f.functions.foldl (fun t (key, r) => t.addFunction key r) .empty

/-- The record of a threat to the component of a key, put there if it is new, and the table with it. -/
def threat (t : ComponentTable) (key name : String) : Except MissingKey (ThreatRecord × ComponentTable) :=
  match t.get? key with
  | none   => .error ⟨key⟩
  | some c => .ok ((c.threats.get? name).getD {}, t.insert key (c.alterThreat name fun r => r))

end ComponentTable

end ThreatModel
