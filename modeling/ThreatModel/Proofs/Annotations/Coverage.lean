import ThreatModel.Proofs.Annotations.Conservation
import ThreatModel.Proofs.Annotations.SourceOrder
import ThreatModel.Proofs.Percentage

/-!
# Coverage — when the counts make ratios

A coverage compares three counts of different things: the names of the definitions found in the
code, the records that facts are counted for, and the names that tests are of.  No annotation has to
have its definition, and a record may test several functions; so neither percentage need stay below
100 (`coverage_exceeds`).

Both do if what is counted can be matched (`coverage_ratio`).
* A record that is bound is bound to a definition that was found (`mem_definitionsOf_of_bound`).  So
  there are no more covered records than definitions, if each is bound to one of a name of its own.
* A test is counted for its record too (`facts_of_tests`).  So there are no more tested names than
  covered records, if no record tests two functions, or if each tested name is that of a record.
-/

namespace ThreatModel

/-- A list whose elements all come from another one, each once at most, is no longer. -/
theorem length_distinct_le {α β : Type} [DecidableEq β] {as : List α} {bs : List β} {g : α → β}
    (h : ∀ b ∈ bs, ∃ a ∈ as, g a = b) : (distinct bs).length ≤ as.length := by
  have hsub : distinct bs ⊆ as.map g := fun b hb =>
    List.mem_map.mpr (h b (mem_distinct_iff.mp hb))
  calc (distinct bs).length ≤ (as.map g).length := (nodup_distinct bs).length_le_of_subset hsub
    _ = as.length := List.length_map ..

namespace Annotations

/-! ### What records are bound to -/

/-- The definition that a statement gives to the function of a name. -/
def Statement.definition? (name : String) : Statement → Option String
  | .definition f _ =>
    if (Text.words f.toList).getLast?.map String.ofList = some name then some f else none
  | _ => none

/-- The name of the definition that a header's record is bound to: the last one in its span that
defines its function. -/
def Header.definition? (rebind : Bool) (h : Header) : Option String :=
  ((saidBelow rebind h.language h.first h.below).filterMap fun st =>
    st.1.definition? h.opened.shortName).getLast?

/-- The definitions that the records with facts are bound to, record by record. -/
def boundDefinitions (ps : List Parse) : List (Option String) :=
  ps.flatMap fun p => ((headersOf p.source).filter fun h => 0 < (h.account p.rebind).facts).map
    (Header.definition? p.rebind)

theorem isSome_getLast?_filterMap {α β : Type} (g : α → Option β) (as : List α) :
    (as.filterMap g).getLast?.isSome = as.any fun a => (g a).isSome := by
  rw [Bool.eq_iff_iff, List.any_eq_true, List.getLast?_isSome, ne_eq, List.filterMap_eq_nil_iff]
  simp [Option.isSome_iff_ne_none]

/-- A record has a site if it is bound to a definition. -/
theorem isSome_definition? (rebind : Bool) (h : Header) :
    (h.definition? rebind).isSome = (h.account rebind).record.site.isSome := by
  rw [Header.account, Account.site_addAll, h.site_opened, Option.or_none, Header.definition?,
    isSome_getLast?_filterMap, isSome_getLast?_filterMap]
  refine List.any_congr rfl fun st => ?_
  cases st.1 with
  | definition f c => simp only [Statement.definition?, Statement.site?]; split <;> rfl
  | _ => rfl

/-- What is said to a record is said by a line below its header. -/
theorem exists_mem_of_mem_saidBelow {rebind : Bool} {l : Language} {first : Nat}
    {below : List String} {st : Statement × Nat} (h : st ∈ saidBelow rebind l first below) :
    ∃ line ∈ below, ∃ inBlock, statement? rules l inBlock line = some st.1 := by
  have hspan : ∀ line, line ∈ block l below ∨ line ∈ behindBlock l below → line ∈ below := by
    intro line hline
    rw [← List.mem_append, block_append_behindBlock] at hline
    exact (List.takeWhile_sublist _).subset hline
  rcases List.mem_append.mp h with h | h
  · obtain ⟨line, hline, hst⟩ := exists_mem_of_mem_statementsIn h
    exact ⟨line, hspan line (.inl hline), true, hst⟩
  · cases rebind with
    | false => cases h
    | true =>
        obtain ⟨line, hline, hst⟩ := exists_mem_of_mem_statementsIn h
        exact ⟨line, hspan line (.inr hline), false, hst⟩

/-- **A record is bound to a definition that was found.** -/
theorem mem_definitionsOf_of_bound {source : String × String} {h : Header} {rebind : Bool}
    {f : String} (hh : h ∈ headersOf source) (hf : h.definition? rebind = some f) :
    f ∈ definitionsOf source := by
  obtain ⟨st, hsaid, hst⟩ := List.mem_filterMap.mp (List.mem_of_getLast? hf)
  obtain ⟨line, hline, inBlock, hstatement⟩ := exists_mem_of_mem_saidBelow hsaid
  have hdefined : st.1.defined? = some f := by
    cases hs : st.1 with
    | definition g c =>
        rw [hs, Statement.definition?] at hst
        split at hst
        · exact hst
        · cases hst
    | _ =>
        rw [hs] at hst
        cases hst
  have hin : definedIn? h.language line = some f := by
    rw [← bind_defined?_statement?, hstatement, Option.bind_some, hdefined]
  obtain ⟨i, hi⟩ := List.getElem?_of_mem hh
  obtain ⟨start, hlines, hfile, -⟩ := of_getElem?_headersIn hi
  refine List.mem_filterMap.mpr ⟨line, ?_, hfile ▸ hin⟩
  rw [hlines]
  exact List.mem_append_right _ (List.mem_cons_of_mem _ hline)

end Annotations

/-! ### The counts -/

namespace Facts
open Annotations

/-- The accounts of the records that facts are counted for. -/
def coveredAccounts (f : Facts) : List Account := f.accounts.filter fun a => 0 < a.facts

/-- The tests of a record are all of one function. -/
def TestsOne (f : Facts) : Prop :=
  ∀ r ∈ f.records, ∀ t ∈ r.tests, ∀ t' ∈ r.tests, t.function = t'.function

/-- The tests are of functions that covered records are of. -/
def TestsCovered (f : Facts) : Prop :=
  ∀ name ∈ testedFunctions f.records, ∃ a ∈ f.coveredAccounts, a.record.function = name

instance (f : Facts) : Decidable f.TestsOne :=
  inferInstanceAs (Decidable (∀ r ∈ f.records, ∀ t ∈ r.tests, ∀ t' ∈ r.tests,
    t.function = t'.function))

instance (f : Facts) : Decidable f.TestsCovered :=
  inferInstanceAs (Decidable (∀ name ∈ testedFunctions f.records, ∃ a ∈ f.coveredAccounts,
    a.record.function = name))

theorem CountsRecords.size_covered {f : Facts} (h : f.CountsRecords) :
    f.covered.size = f.coveredAccounts.length := by
  rw [coveredAccounts, ← h.perm_counted.length_eq, counted, List.length_map, Ledger.size]

end Facts

namespace Annotations

variable (ps : List Parse)

theorem size_found_parseAll : (parseAll .empty ps).found.size =
    (distinct (ps.flatMap fun p => definitionsOf p.source)).length := by
  have hfound : (parseAll .empty ps).found =
      Tally.ofList (ps.flatMap fun p => definitionsOf p.source) := found_parseAll .empty ps
  rw [hfound, Tally.size_ofList]

theorem size_covered_parseAll :
    (parseAll .empty ps).covered.size = (parseAll .empty ps).coveredAccounts.length :=
  (countsRecords_parseAll Facts.countsRecords_empty ps).size_covered

theorem size_tested_parseAll : (parseAll .empty ps).tested.size =
    (distinct (testedFunctions (parseAll .empty ps).records)).length := by
  rw [tested_parseAll rfl ps, Tally.size_ofList]

/-- A record's tests are among what is counted for it. -/
theorem length_tests_le {a : Account} (ha : a ∈ (parseAll .empty ps).accounts) :
    a.record.tests.length ≤ a.facts := by
  obtain ⟨id, -, rfl⟩ := List.mem_map.mp ha
  have hcount := conserves_parseAll ps Facts.conserves_empty id
  have htests : ((parseAll .empty ps).record id).tests.length ≤
      ((parseAll .empty ps).record id).factCount := by
    rw [FunctionRecord.factCount]
    omega
  calc ((parseAll .empty ps).record id).tests.length
      ≤ ((parseAll .empty ps).record id).factCount := htests
    _ ≤ Tally.count (parseAll .empty ps).covered id := by rw [hcount]; exact Nat.le_add_right _ _

/-- A record that tests something is covered. -/
theorem mem_coveredAccounts_of_tests {a : Account} (ha : a ∈ (parseAll .empty ps).accounts)
    {t : ThreatTest} (ht : t ∈ a.record.tests) : a ∈ (parseAll .empty ps).coveredAccounts := by
  have hlen := length_tests_le ps ha
  have hpos := List.length_pos_of_mem ht
  exact List.mem_filter.mpr ⟨ha, decide_eq_true (by omega)⟩

/-- A tested name is that of a covered record's test. -/
theorem exists_of_mem_testedFunctions {name : String}
    (h : name ∈ testedFunctions (parseAll .empty ps).records) :
    ∃ a ∈ (parseAll .empty ps).coveredAccounts, a.record ∈ (parseAll .empty ps).records ∧
      ∃ t ∈ a.record.tests, t.function = name := by
  obtain ⟨r, hr, hname⟩ := List.mem_flatMap.mp h
  obtain ⟨t, ht, rfl⟩ := List.mem_map.mp hname
  rw [← Facts.map_record_accounts] at hr
  obtain ⟨a, ha, rfl⟩ := List.mem_map.mp hr
  refine ⟨a, mem_coveredAccounts_of_tests ps ha ht, ?_, t, ht, rfl⟩
  rw [← Facts.map_record_accounts]
  exact List.mem_map_of_mem ha

/-- Without covered records nothing is tested. -/
theorem testedFunctions_eq_nil (h : (parseAll .empty ps).coveredAccounts = []) :
    testedFunctions (parseAll .empty ps).records = [] := by
  refine List.eq_nil_iff_forall_not_mem.mpr fun name hname => ?_
  obtain ⟨a, ha, -⟩ := exists_of_mem_testedFunctions ps hname
  rw [h] at ha
  cases ha

/-- **No more functions are tested than records are covered**, if the tests can be told apart by
their records. -/
theorem length_tested_le (h : (parseAll .empty ps).TestsOne ∨ (parseAll .empty ps).TestsCovered) :
    (distinct (testedFunctions (parseAll .empty ps).records)).length ≤
      (parseAll .empty ps).coveredAccounts.length := by
  rcases h with hone | hcovered
  · -- a name is that of the first test of its record
    refine length_distinct_le (g := fun a => (a.record.tests.head?.map ThreatTest.function).getD "")
      fun name hname => ?_
    obtain ⟨a, ha, hr, t, ht, rfl⟩ := exists_of_mem_testedFunctions ps hname
    refine ⟨a, ha, ?_⟩
    obtain ⟨first, rest, htests⟩ := List.exists_cons_of_ne_nil (List.ne_nil_of_mem ht)
    have hfirst : first ∈ a.record.tests := htests ▸ List.mem_cons_self
    rw [htests, List.head?_cons, Option.map_some, Option.getD_some]
    exact hone a.record hr first hfirst t ht
  · exact length_distinct_le (g := fun a => a.record.function) hcovered

/-- The definitions of records are there where the records have sites. -/
theorem map_isSome_boundDefinitions : (boundDefinitions ps).map Option.isSome =
    (parseAll .empty ps).coveredAccounts.map fun a => a.record.site.isSome := by
  have haccounts : (parseAll .empty ps).accounts =
      ps.flatMap fun p => (headersOf p.source).map (Header.account p.rebind) :=
    accounts_parseAll Facts.countsRecords_empty ps
  rw [boundDefinitions, Facts.coveredAccounts, haccounts, List.map_flatMap, List.filter_flatMap,
    List.map_flatMap]
  refine congrArg (ps.flatMap ·) (funext fun p => ?_)
  rw [List.filter_map, List.map_map, List.map_map]
  exact List.map_congr_left fun h _ => isSome_definition? p.rebind h

/-- **No more records are covered than functions are found**, if each is bound to a function of its
own. -/
theorem length_covered_le (hbound : none ∉ boundDefinitions ps)
    (hown : (boundDefinitions ps).Nodup) : (parseAll .empty ps).coveredAccounts.length ≤
      (distinct (ps.flatMap fun p => definitionsOf p.source)).length := by
  have hlen := congrArg List.length (map_isSome_boundDefinitions ps)
  rw [List.length_map, List.length_map] at hlen
  have hsub : boundDefinitions ps ⊆
      (distinct (ps.flatMap fun p => definitionsOf p.source)).map some := by
    intro f? hf
    obtain ⟨p, hp, hin⟩ := List.mem_flatMap.mp hf
    obtain ⟨h, hh, rfl⟩ := List.mem_map.mp hin
    cases hdef : h.definition? p.rebind with
    | none => exact absurd (hdef ▸ hf) hbound
    | some f =>
        have hfound := mem_definitionsOf_of_bound (List.mem_filter.mp hh).1 hdef
        exact List.mem_map_of_mem (mem_distinct_iff.mpr (List.mem_flatMap.mpr ⟨p, hp, hfound⟩))
  calc (parseAll .empty ps).coveredAccounts.length = (boundDefinitions ps).length := hlen.symm
    _ ≤ ((distinct (ps.flatMap fun p => definitionsOf p.source)).map some).length :=
        hown.length_le_of_subset hsub
    _ = (distinct (ps.flatMap fun p => definitionsOf p.source)).length := List.length_map ..

/-- **A coverage makes ratios if what is counted can be matched.**  Found are the names of
definitions, covered the records with facts, tested the names that tests are of.  If every covered
record is bound, and no two to definitions of one name, at most as many are covered as found; if no
record tests two functions, or if only functions of covered records are tested, at most as many are
tested as covered.  Each percentage is then printed as at most 100.00. -/
theorem coverage_ratio :
    let facts := parseAll .empty ps
    let c := facts.coverage
    c.found = (distinct (ps.flatMap fun p => definitionsOf p.source)).length ∧
      c.covered = facts.coveredAccounts.length ∧
      c.tested = (distinct (testedFunctions facts.records)).length ∧
      (boundDefinitions ps).map Option.isSome =
        facts.coveredAccounts.map (fun a => a.record.site.isSome) ∧
      (none ∉ boundDefinitions ps → (boundDefinitions ps).Nodup → c.covered ≤ c.found ∧
        ∃ h, h ≤ 10000 ∧ Report.percent c.coveredPercent = Report.inHundredths h) ∧
      (facts.TestsOne ∨ facts.TestsCovered → c.tested ≤ c.covered ∧
        ∃ h, h ≤ 10000 ∧ Report.percent c.testedPercent = Report.inHundredths h) ∧
      (c.covered = 0 → c.tested = 0) := by
  intro facts c
  have hfound := size_found_parseAll ps
  have hcovered := size_covered_parseAll ps
  have htested := size_tested_parseAll ps
  refine ⟨congrArg Nat.cast hfound, congrArg Nat.cast hcovered, congrArg Nat.cast htested,
    map_isSome_boundDefinitions ps, fun hbound hown => ?_, fun htests => ?_, fun hzero => ?_⟩
  · have hle : facts.covered.size ≤ facts.found.size := by
      rw [hcovered, hfound]
      exact length_covered_le ps hbound hown
    exact ⟨Int.ofNat_le.mpr hle, Report.percent_of_le hle⟩
  · have hle : facts.tested.size ≤ facts.covered.size := by
      rw [htested, hcovered]
      exact length_tested_le ps htests
    exact ⟨Int.ofNat_le.mpr hle, Report.percent_of_le hle⟩
  · have hnone : facts.coveredAccounts = [] := by
      rw [← List.length_eq_zero_iff, ← hcovered]
      exact Int.ofNat.inj hzero
    show (facts.tested.size : Int) = 0
    rw [htested, testedFunctions_eq_nil ps hnone]
    rfl

theorem coverage_ratio_two_files :
    let ps : List Parse :=
      [⟨true, "a.go", "// ThreatSpec M for F\n// Tests F for T\nfunc F() \x7b\nfunc H() \x7b\n"⟩,
        ⟨false, "b.py", "# ThreatSpec M for G\n# Does x for y\ndef G():\n"⟩]
    let c := (parseAll .empty ps).coverage
    c = ⟨3, 2, 1⟩ ∧ c.covered ≤ c.found ∧ c.tested ≤ c.covered ∧
      ∃ h, h ≤ 10000 ∧ Report.percent c.coveredPercent = Report.inHundredths h := by
  intro ps c
  obtain ⟨-, -, -, -, hcovered, htested, -⟩ := coverage_ratio ps
  obtain ⟨hle, hpercent⟩ := hcovered (by decide +kernel) (by decide +kernel)
  exact ⟨by decide +kernel, hle, (htested (.inl (by decide +kernel))).1, hpercent⟩

/-- Two records without definitions, one definition of two records, and a record that tests two
functions. -/
theorem coverage_exceeds :
    let unbound := parseAll .empty [⟨true, "a.go",
      "// ThreatSpec M for F\n// Does x for y\n// ThreatSpec M for G\n// Does x for y\nfunc H() \x7b\n"⟩]
    let shared := parseAll .empty
      [⟨true, "a.go", "// ThreatSpec M for F\n// Does x for y\nfunc F() \x7b\n"⟩,
        ⟨true, "b.go", "// ThreatSpec M for F\n// Does x for y\nfunc F() \x7b\n"⟩]
    let tests := parseAll .empty
      [⟨true, "a.go", "// ThreatSpec M for F\n// Tests F for T\n// Tests G for T\nfunc F() \x7b\n"⟩]
    unbound.coverage = ⟨1, 2, 0⟩ ∧ shared.coverage = ⟨1, 2, 0⟩ ∧ tests.coverage = ⟨1, 1, 2⟩ ∧
      Report.percent shared.coverage.coveredPercent = "200.00" ∧
      Report.percent tests.coverage.testedPercent = "200.00" := by
  decide +kernel

end Annotations

end ThreatModel
