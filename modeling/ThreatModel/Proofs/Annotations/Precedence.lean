import ThreatModel.Proofs.Annotations.Blocks

/-!
# Precedence — which part of the order of the rules matters

Rules are tried one after the other, and the first that reads a line decides.  At most one rule
does, but for lines that read as a package and as a header as well (`rule_unique`).  So two orders
in which packages come before headers find the same statement in every line
(`statement?_of_packagesFirst`), and a reader makes the same of any sources
(`readSources_of_statement?`).

If headers come first, a line such as `ThreatSpec package a for b` opens a record instead
(`statement?_of_headersFirst`).  `rules_precedence` puts both together: of all that an order of the
rules says, only the precedence of packages over headers can be seen.
-/

namespace ThreatModel.Annotations

/-- Packages are tried before headers. -/
def PackagesFirst (order : List Rule) : Prop :=
  order.idxOf (.form .package) < order.idxOf (.form .header)

instance (order : List Rule) : Decidable (PackagesFirst order) :=
  inferInstanceAs (Decidable (_ < _))

/-- What comes first in a list stands in front of all places of what comes later. -/
theorem mem_of_idxOf_lt {α : Type} [DecidableEq α] {as bs : List α} {a b : α}
    (h : (as ++ b :: bs).idxOf a < (as ++ b :: bs).idxOf b) : a ∈ as := by
  by_contra ha
  have hb : (as ++ b :: bs).idxOf b ≤ as.length := by
    rw [List.idxOf_append]
    split
    · exact List.idxOf_le_length
    · exact Nat.le_of_eq (by rw [List.idxOf_cons_self, Nat.zero_add])
  rw [List.idxOf_append_of_notMem ha] at h
  omega

/-! ### The statement of a line in any order -/

variable {order : List Rule} {l : Language} {inBlock : Bool} {line : String} {st : Statement}

/-- A statement is what the first rule reads that is tried there and reads the line. -/
theorem exists_first_of_statement? (h : statement? order l inBlock line = some st) :
    ∃ before r after, order = before ++ r :: after ∧ (r.blockOnly = true → inBlock = true) ∧
      r.read? l line = some st ∧
      ∀ r' ∈ before, r'.blockOnly = false → r'.read? l line = none := by
  obtain ⟨before, r, after, horder, hr, hbefore⟩ := List.findSome?_eq_some_iff.mp h
  split at hr
  · cases hr
  · rename_i htried
    refine ⟨before, r, after, horder, fun hb => by simpa [hb] using htried, hr,
      fun r' hr' hopen => ?_⟩
    simpa [hopen] using hbefore r' hr'

/-- A rule that reads a line gives it a statement in any order with all rules. -/
theorem exists_statement?_of_read {r : Rule} (inBlock : Bool) (hall : ∀ r, r ∈ order)
    (h : r.read? l line = some st) (hb : r.blockOnly = true → inBlock = true) :
    ∃ st', statement? order l inBlock line = some st' := by
  rw [← Option.isSome_iff_exists, statement?, List.findSome?_isSome_iff]
  refine ⟨r, hall r, ?_⟩
  cases hr : r.blockOnly <;> simp_all

/-- **Orders in which packages come before headers find the same statement in every line.** -/
theorem statement?_of_packagesFirst (hall : ∀ r, r ∈ order) (hfirst : PackagesFirst order)
    (l : Language) (inBlock : Bool) (line : String) :
    statement? order l inBlock line = statement? rules l inBlock line := by
  cases h : statement? order l inBlock line with
  | some st =>
      obtain ⟨before, r, after, rfl, hb, hr, hbefore⟩ := exists_first_of_statement? h
      refine (statement?_of_read hr hb ?_).symm
      rintro rfl
      exact hbefore _ (mem_of_idxOf_lt hfirst) rfl
  | none =>
      refine (statement?_eq_none_iff.mpr fun r hb => ?_).symm
      cases hr : r.read? l line with
      | none => rfl
      | some st =>
          obtain ⟨st', hst'⟩ := exists_statement?_of_read inBlock hall hr hb
          rw [h] at hst'
          cases hst'

/-- If headers come before packages, a line that reads as both is a header. -/
theorem statement?_of_headersFirst (hall : ∀ r, r ∈ order) (hfirst : ¬ PackagesFirst order)
    (hp : ((Rule.form .package).read? l line).isSome) (hh : Form.header.read? line = some st) :
    statement? order l inBlock line = some st := by
  have hread : (Rule.form .header).read? l line = some st := hh
  obtain ⟨st', hst'⟩ :=
    exists_statement?_of_read inBlock hall hread (by simp [Rule.blockOnly])
  obtain ⟨before, r, after, rfl, -, hr, hbefore⟩ := exists_first_of_statement? hst'
  -- only those two rules read the line, and the package's does not come first
  rcases rule_unique (by rw [hr]; rfl) hp with rfl | ⟨rfl, -⟩ | ⟨-, hne⟩
  · have hlt : (before ++ .form .package :: after).idxOf (.form .header) <
        (before ++ .form .package :: after).idxOf (.form .package) := by
      refine Nat.lt_of_le_of_ne (Nat.le_of_not_lt hfirst) fun heq => ?_
      cases (List.idxOf_inj (hall (.form .header))).mp heq
    rw [hbefore _ (mem_of_idxOf_lt hlt) rfl] at hread
    cases hread
  · rw [hst', ← hr, hread]
  · cases hne

/-! ### Runs -/

namespace Reader

variable {rebind : Bool} {r : Reader}

/-- Of the order only the statements that it finds matter. -/
theorem step_of_statement? (hrebind : r.rebind = rebind)
    (h : ∀ l inBlock line, statement? r.order l inBlock line = statement? rules l inBlock line)
    (file : String) : r.step file = (usual rebind).step file := by
  funext s line
  rw [step, step, h, hrebind]
  rfl

theorem readSources_of_statement? (hrebind : r.rebind = rebind)
    (h : ∀ l inBlock line, statement? r.order l inBlock line = statement? rules l inBlock line)
    (facts : Facts) (sources : List (String × String)) :
    r.readSources facts sources = (usual rebind).readSources facts sources := by
  induction sources generalizing facts with
  | nil => rfl
  | cons source sources ih =>
      obtain ⟨file, text⟩ := source
      have hsource : r.readSource facts file text = (usual rebind).readSource facts file text := by
        rw [readSource, readSource, readLines, readLines, step_of_statement? hrebind h]
      simp only [readSources, hsource, ih]

/-- One line is read by its statement. -/
theorem records_readSources_line {file line text : String} (hlines : linesOf text = [line])
    (hst : statement? r.order (Language.ofFileName file) false line = some st) :
    (r.readSources .empty [(file, text)]).1.records = (st.record? none line).toList := by
  have hsource : (r.readSources .empty [(file, text)]).1 =
      (r.step file (.start file .empty) line).facts := by
    rw [readSources, readSource, hlines]
    rfl
  rw [hsource, records_step_of_some hst]
  rfl

/-- If headers come before packages, a line that reads as both opens a record and declares none. -/
theorem readSources_ne_of_headersFirst (hall : ∀ r, r ∈ order) (hfirst : ¬ PackagesFirst order) :
    ({ order := order } : Reader).readSources .empty [("", "# ThreatSpec package a for b")] ≠
      (usual true).readSources .empty [("", "# ThreatSpec package a for b")] := by
  intro hsame
  have hlines : linesOf "# ThreatSpec package a for b" = ["# ThreatSpec package a for b"] := by
    decide +kernel
  have hp : (Rule.form .package).read? (Language.ofFileName "") "# ThreatSpec package a for b" =
      some (.package ⟨"a for b", none, "# ThreatSpec package a for b"⟩) := by decide +kernel
  have hh : Form.header.read? "# ThreatSpec package a for b" = some (.header "package a" "b") := by
    decide +kernel
  have hone := records_readSources_line (r := { order := order }) hlines
    (statement?_of_headersFirst hall hfirst (by rw [hp]; rfl) hh)
  have hother := records_readSources_line (r := usual true) hlines (statement?_of_package hp)
  rw [hsame, hother] at hone
  cases hone

end Reader

/-- **The rules have one real precedence.**  Two different rules read one line only if they are the
package's and the header's, and the orders of the rules in which packages come before headers are
those that make no difference to the facts and to what is reported. -/
theorem rules_precedence :
    (∀ (file line : String) (r r' : Rule), r ≠ r' →
      (r.read? (Language.ofFileName file) line).isSome →
      (r'.read? (Language.ofFileName file) line).isSome →
        r = .form .package ∧ r' = .form .header ∨ r = .form .header ∧ r' = .form .package) ∧
    ∀ order : List Rule, order.Perm rules →
      (PackagesFirst order ↔
        ∀ (rebind : Bool) (facts : Facts) (sources : List (String × String)),
          ({ rebind := rebind, order := order } : Reader).readSources facts sources =
            (Reader.usual rebind).readSources facts sources) := by
  constructor
  · intro file line r r' hne hr hr'
    rcases rule_unique hr hr' with h | h | h
    · exact absurd h hne
    · exact .inr h
    · exact .inl h
  · intro order hperm
    have hall : ∀ r, r ∈ order := fun r => hperm.mem_iff.mpr (mem_rules r)
    constructor
    · intro hfirst rebind
      exact Reader.readSources_of_statement? rfl (statement?_of_packagesFirst hall hfirst)
    · intro hsame
      by_contra hfirst
      exact Reader.readSources_ne_of_headersFirst hall hfirst (hsame true .empty _)

end ThreatModel.Annotations
