import ThreatModel.Facts.Record
import ThreatModel.Ledger
import ThreatModel.Percentage
import ThreatModel.Text.Quoted

/-!
# Facts — everything read from a set of sources

`Facts` keeps every record in order of creation; a record is referred to by its place in that order, its `RecordId`, so two
headers of one function are two records even if they read alike.  The table maps keys to records, the last header of a key
winning; a record that loses its entry is listed among the duplicates.  The tallies count definitions found, facts per
record, and tests per function.

* `record_add`: a new record leaves the others as they are.
* `duplicates_put`: when an entry is displaced.
-/

namespace ThreatModel

/-- A record's place in the order of creation. -/
abbrev RecordId : Type := Nat

/-- There is no entry of this key. -/
structure MissingKey where
  key : String
deriving DecidableEq, Repr

/-- What is reported of a missing key: the key in quotes. -/
def MissingKey.message (e : MissingKey) : String := Text.quoted e.key

/-- The facts of a set of sources. -/
structure Facts where
  /-- All records, in order of creation. -/
  records : List FunctionRecord := []
  /-- The functions by key. -/
  table : Ledger String RecordId := .empty
  packages : List Package := []
  /-- The records displaced from the table, in order. -/
  duplicates : List RecordId := []
  /-- Definitions found in the code, by name. -/
  found : Tally String := .empty
  /-- Facts attached, by record. -/
  covered : Tally RecordId := .empty
  /-- Tests, by the function they name. -/
  tested : Tally String := .empty
deriving Inhabited

/-- How many functions were found, covered and tested. -/
structure Coverage where
  found : Int
  covered : Int
  tested : Int
deriving DecidableEq, Repr

namespace Coverage

/-- The covered functions, in percent of those found. -/
def coveredPercent (c : Coverage) : Except PercentageError Binary64 := percentage c.covered c.found

/-- The tested functions, in percent of those covered. -/
def testedPercent (c : Coverage) : Except PercentageError Binary64 := percentage c.tested c.covered

end Coverage

namespace Facts

/-- No facts. -/
def empty : Facts := {}

/-- The record of an id; a blank one if the id was never given out. -/
def record (f : Facts) (id : RecordId) : FunctionRecord := f.records.getD id default

/-- The functions of the table with their keys, in the table's order. -/
def functions (f : Facts) : List (String × FunctionRecord) :=
  f.table.toList.map fun (key, id) => (key, f.record id)

/-- The record stored under a key. -/
def function? (f : Facts) (key : String) : Option FunctionRecord := (f.table.get? key).map f.record

/-- Adds a record; its id is the number of records before it. -/
def add (f : Facts) (r : FunctionRecord) : Facts × RecordId :=
  ({ f with records := f.records ++ [r] }, f.records.length)

/-- Changes one record. -/
def update (f : Facts) (id : RecordId) (g : FunctionRecord → FunctionRecord) : Facts :=
  { f with records := f.records.modify id g }

/-- Stores a record under a key.  Another record stored there before becomes a duplicate. -/
def put (f : Facts) (key : String) (id : RecordId) : Facts :=
  { f with
    table := f.table.insert key id
    duplicates :=
      match f.table.get? key with
      | some old => if old = id then f.duplicates else f.duplicates ++ [old]
      | none     => f.duplicates }

/-- Adds a record under a key. -/
def putNew (f : Facts) (key : String) (r : FunctionRecord) : Facts :=
  let (f, id) := f.add r
  f.put key id

/-- Stores the record of the key `source` under the key `key` as well. -/
def share (f : Facts) (key source : String) : Except MissingKey Facts :=
  match f.table.get? source with
  | some id => .ok (f.put key id)
  | none    => .error ⟨source⟩

/-- Gives the record of a key a site. -/
def bind (f : Facts) (key : String) (site : CodeSite) : Except MissingKey Facts :=
  match f.table.get? key with
  | some id => .ok (f.update id fun r => { r with site := some site })
  | none    => .error ⟨key⟩

/-- The numbers of functions found, covered and tested. -/
def coverage (f : Facts) : Coverage := ⟨f.found.size, f.covered.size, f.tested.size⟩

theorem record_add (f : Facts) (r : FunctionRecord) (id : RecordId) :
    (f.add r).1.record id = if id = f.records.length then r else f.record id := by
  simp only [record, add, List.getD_eq_getElem?_getD]
  rcases Nat.lt_trichotomy id f.records.length with h | h | h
  · simp [List.getElem?_append_left h, Nat.ne_of_lt h]
  · subst h; simp
  · rw [List.getElem?_eq_none (by simpa using Nat.succ_le_of_lt h), List.getElem?_eq_none (Nat.le_of_lt h)]
    simp [Nat.ne_of_gt h]

/-- **A record loses its entry exactly when another one is stored under its key.** -/
theorem duplicates_put (f : Facts) (key : String) (id : RecordId) :
    (f.put key id).duplicates = f.duplicates ++ ((f.table.get? key).filter (· ≠ id)).toList := by
  simp only [put]
  cases h : f.table.get? key with
  | none => simp
  | some old => by_cases ho : old = id <;> simp [ho, Option.filter]

end Facts

end ThreatModel
