import ThreatModel.Proofs.Annotations.Sources

/-!
# Rebinding — what it changes, and what it leaves alone

A reader that does not rebind forgets the current record at the end of its block.  Only what is said
behind the block can then be missed, and behind a block only calls are declared and sites given: the
rebinding reader's account of a header is the other one's with what is said behind the block
(`Header.account_true`), and nothing of it goes into the other fields of the record
(`Header.compared`).

All else that is read does not depend on the current record, or is settled by the records' keys and
tests; `factsOf_compared` lists it.
-/

namespace ThreatModel.Annotations

/-- What a reader that rebinds and one that does not make of one header: they agree on all but the
calls, the site and the number of facts. -/
structure Header.Compared (h : Header) (loose strict : Account) : Prop where
  record : loose.record =
    { strict.record with calls := loose.record.calls, site := loose.record.site }
  calls : strict.record.calls <+: loose.record.calls
  /-- The strict reader leaves out the calls that are declared behind the block. -/
  facts : strict.facts + h.behind.countP declaresCalls = loose.facts
  /-- It binds the record in its block only, by the last definition there that names it. -/
  site : strict.record.site =
    (sitesIn h.file strict.record.shortName h.first h.block).getLast?

namespace Header

variable (h : Header)

/-- Without rebinding a record gets what its block says. -/
theorem account_false : h.account false =
    Account.addAll h.file ⟨h.opened, 0⟩ (statementsIn h.language true h.first h.block) :=
  congrArg (Account.addAll h.file _) (List.append_nil _)

/-- With rebinding it gets what the rest of the span says as well. -/
theorem account_true : h.account true = (h.account false).addAll h.file
    (statementsIn h.language false (h.first + h.block.length) h.behind) := by
  rw [account_false]
  exact List.foldl_append

/-- **Behind its block a record can only get calls and a site.** -/
theorem compared : h.Compared (h.account true) (h.account false) where
  record := by
    rw [account_true]
    exact Account.record_addAll_of_open fun _ => rule_of_mem_statementsIn
  calls := by
    rw [account_true, Account.calls_addAll]
    exact List.prefix_append _ _
  facts := by
    rw [account_true, Account.facts_addAll, countP_isFact_statementsIn]
  site := by
    rw [shortName_account, account_false, Account.site_addAll, site_opened, Option.or_none]
    exact congrArg List.getLast? (filterMap_site?_statementsIn h.file h.opened.shortName)

end Header

/-- **Rebinding changes the calls, the sites and the facts counted, and nothing else**: packages,
definitions, tests, the table and the duplicates are the same, and so is the rest of each record. -/
theorem factsOf_compared (sources : List (String × String)) :
    (factsOf false sources).packages = (factsOf true sources).packages ∧
      (factsOf false sources).found = (factsOf true sources).found ∧
      (factsOf false sources).tested = (factsOf true sources).tested ∧
      (factsOf false sources).table = (factsOf true sources).table ∧
      (factsOf false sources).duplicates = (factsOf true sources).duplicates ∧
      (factsOf true sources).records.length = (sources.flatMap headersOf).length ∧
      (factsOf false sources).records.length = (sources.flatMap headersOf).length ∧
      ∀ id (h : Header), (sources.flatMap headersOf)[id]? = some h →
        h.Compared ((factsOf true sources).account id) ((factsOf false sources).account id) := by
  obtain ⟨htable, hduplicates⟩ :=
    (filed_factsOf false sources).eq_of_recordKeys (filed_factsOf true sources)
      ((recordKeys_factsOf false sources).trans (recordKeys_factsOf true sources).symm)
  have htests : ∀ h : Header, (h.account false).record.tests = (h.account true).record.tests :=
    fun h => by rw [h.compared.record]
  refine ⟨?_, ?_, ?_, htable, hduplicates, ?_, ?_, fun id h hget => ?_⟩
  · rw [packages_factsOf, packages_factsOf]
  · rw [found_factsOf, found_factsOf]
  · rw [tested_factsOf, tested_factsOf, records_factsOf, records_factsOf, testedFunctions,
      testedFunctions, List.flatMap_map, List.flatMap_map]
    simp only [htests]
  · rw [records_factsOf, List.length_map]
  · rw [records_factsOf, List.length_map]
  · rw [account_factsOf true sources hget, account_factsOf false sources hget]
    exact h.compared

/-- A call that is declared behind the block counts for the reader that rebinds. -/
example :
    let calls := fun rebind =>
      (factsOf rebind [("a.go", "// ThreatSpec M for F\n// Calls G\n\n// Calls H")]).records.map
        fun r => r.calls.map DeclaredCall.callee
    calls true = [["G", "H"]] ∧ calls false = [["G"]] := by
  decide +kernel

end ThreatModel.Annotations
