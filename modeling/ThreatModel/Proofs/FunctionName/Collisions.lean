import ThreatModel.Annotations.Reader
import ThreatModel.Proofs.FunctionName.Spelling

/-!
# Function names — which names share a key

The key of a qualified name `[path/]package[.type].function` joins its parts by colons.  It tells
the parts apart (`eq_of_joined_eq`) but not which part each is: `a/b.c` and `a.b.c` both have the key
`a:b:c`.  These are the only names that share a key (`keys_told_apart`): the path of the one is the
package of the other, and its package is the other's type (`QualifiedName.Blurs`).

A newline is no character of a part, because no pattern reads one before the end of the text
(`not_mem_newline_of_key?`); at the end it is dropped, so `k.f` and `k.f` with a newline share
their key too (`keys_shared`).
-/

namespace ThreatModel.FunctionName

open Pattern

/-! ### Qualified names -/

/-- A part of a qualified name: a text without the characters that cut a name or join a key. -/
def IsPart (s : String) : Prop :=
  s ≠ "" ∧ ∀ c ∈ s.toList, c ∉ ['.', '/', '(', ')', '*', '#', ':']

/-- The path of a qualified name: a text without colons that does not open like a receiver. -/
def IsPartPath (s : String) : Prop :=
  s ≠ "" ∧ ':' ∉ s.toList ∧ s.toList.head? ≠ some '(' ∧ s.toList.head? ≠ some '*'

instance : DecidablePred IsPart := fun s =>
  @instDecidableAnd _ _ _ (List.decidableBAll _ s.toList)

instance : DecidablePred IsPartPath := fun _ => inferInstanceAs (Decidable (_ ∧ _))

/-- A qualified name, in its parts. -/
@[ext]
structure QualifiedName where
  path : Option String
  package : String
  type : Option String
  function : String
  path_isPartPath : ∀ p ∈ path, IsPartPath p
  package_isPart : IsPart package
  type_isPart : ∀ t ∈ type, IsPart t
  function_isPart : IsPart function

namespace QualifiedName

/-- `[path/]package[.type].function` -/
def text (n : QualifiedName) : String :=
  (match n.path with
    | some p => p ++ "/" ++ n.package
    | none   => n.package) ++ "." ++
  (match n.type with
    | some t => t ++ "." ++ n.function
    | none   => n.function)

/-- The parts that are there, in order. -/
def parts (n : QualifiedName) : List String :=
  n.path.toList ++ n.package :: (n.type.toList ++ [n.function])

/-- The path of one name is the package of the other, and its package is the other's type. -/
def Blurs (n n' : QualifiedName) : Prop :=
  n.path = some n'.package ∧ n.type = none ∧ n'.path = none ∧ n'.type = some n.package ∧
    n.function = n'.function

/-- The names are one name, or their keys do not tell them apart. -/
def SharesKey (n n' : QualifiedName) : Prop := n = n' ∨ n.Blurs n' ∨ n'.Blurs n

end QualifiedName

theorem IsPart.not_mem_colon {s : String} (h : IsPart s) : ':' ∉ s.toList :=
  fun hm => h.2 _ hm (by simp)

theorem IsPart.isSegment {s : String} (h : IsPart s) (hn : '\n' ∉ s.toList) : IsSegment s := by
  refine ⟨h.1, fun c hc hm => ?_⟩
  have hbar := h.2 c hc
  simp only [List.mem_cons, List.not_mem_nil, or_false] at hm hbar
  rcases hm with rfl | rfl | rfl | rfl | rfl | rfl | rfl <;> simp_all

variable {n n' : QualifiedName}

theorem QualifiedName.not_mem_colon {s : String} (h : s ∈ n.parts) : ':' ∉ s.toList := by
  simp only [QualifiedName.parts, List.mem_append, List.mem_cons, Option.mem_toList,
    List.not_mem_nil, or_false] at h
  rcases h with h | rfl | h | rfl
  · exact (n.path_isPartPath s h).2.1
  · exact n.package_isPart.not_mem_colon
  · exact (n.type_isPart s h).not_mem_colon
  · exact n.function_isPart.not_mem_colon

/-- **A joined text tells its parts apart**, if none of them has a colon. -/
theorem eq_of_joined_eq {ss ss' : List String} (hne : ss ≠ []) (hne' : ss' ≠ [])
    (h : ∀ s ∈ ss, ':' ∉ s.toList) (h' : ∀ s ∈ ss', ':' ∉ s.toList)
    (heq : String.intercalate ":" ss = String.intercalate ":" ss') : ss = ss' := by
  have hsplit : ∀ {ss : List String}, ss ≠ [] → (∀ s ∈ ss, ':' ∉ s.toList) →
      (String.intercalate ":" ss).toList.splitOn ':' = ss.map String.toList := by
    intro ss hne h
    rw [String.toList_intercalate]
    exact List.splitOn_intercalate ':' (by simpa using h) (by simpa using hne)
  have hlists : ss.map String.toList = ss'.map String.toList := by
    rw [← hsplit hne h, heq, hsplit hne' h']
  exact List.map_inj_right (fun _ _ => String.toList_inj.mp) |>.mp hlists

/-! ### Names of one line -/

theorem oneLine_written : written.OneLine := by
  simp [written, chain, Pattern.optional, field, several, OneLine, notNewline,
    show Text.isDecimal '\n' = false by decide]

/-- A name that has a key is read up to its end, or up to the newline that ends it. -/
theorem not_mem_newline_of_key? {w K : String} (h : key? w = some K)
    (hend : w.toList.getLast? ≠ some '\n') : '\n' ∉ w.toList := by
  obtain ⟨m, hm, -⟩ := Option.map_eq_some_iff.mp h
  obtain ⟨r, hr⟩ := match?_isSome_iff.mp (Option.isSome_of_eq_some hm)
  obtain ⟨u, hu, hw⟩ := hr.oneLine oneLine_written
  obtain ⟨_, -, _, -, _, -, _, -, _, -, _, -, _, -, _, -, _, -, rfl, hfinish⟩ := hr
  rcases hfinish with rfl | rfl
  · simpa [hw] using hu
  · exact absurd (by simp [hw]) hend

/-- The last character of a name is the last one of its function. -/
theorem QualifiedName.getLast?_text (n : QualifiedName) :
    n.text.toList.getLast? = n.function.toList.getLast? := by
  have hf : n.function.toList ≠ [] := by simpa using n.function_isPart.1
  cases ht : n.type <;>
    simp [QualifiedName.text, ht, List.getLast?_append, List.getLast?_cons,
      List.getLast?_eq_some_getLast hf]

/-- A qualified name of one line, as a name of a function. -/
def QualifiedName.toName (n : QualifiedName) (hn : '\n' ∉ n.text.toList) : Name where
  path := n.path
  package := n.package
  type := n.type
  function := n.function
  path_isPath := fun p hp => by
    obtain ⟨hne, -, hpar, hstar⟩ := n.path_isPartPath p hp
    refine ⟨hne, fun hm => hn ?_, hpar, hstar⟩
    rw [Option.mem_def] at hp
    simp [QualifiedName.text, hp, hm]
  package_isSegment := n.package_isPart.isSegment fun hm => hn <| by
    cases hp : n.path <;> simp [QualifiedName.text, hp, hm]
  type_isSegment := fun t ht => (n.type_isPart t ht).isSegment fun hm => hn <| by
    rw [Option.mem_def] at ht
    simp [QualifiedName.text, ht, hm]
  function_isSegment := n.function_isPart.isSegment fun hm => hn <| by
    cases ht : n.type <;> simp [QualifiedName.text, ht, hm]

/-- **The key of a qualified name joins its parts.** -/
theorem QualifiedName.key?_text (n : QualifiedName) (hn : '\n' ∉ n.text.toList) :
    key? n.text = some (String.intercalate ":" n.parts) := by
  have htext : n.text.toList = (n.toName hn).packagePath.toList ++ '.' ::
      (n.toName hn).member.toList := by
    simp only [QualifiedName.text, String.toList_append, List.append_assoc]
    rfl
  cases ht : n.type with
  | none =>
      exact key?_of_no_type (n := n.toName hn) ht (.inl rfl)
        (by simp [htext, Name.member, QualifiedName.toName, ht])
  | some t =>
      exact key?_of_type (n := n.toName hn) [] [] ht (.inl rfl) (.inl rfl) (.inl rfl)
        (by simp [htext, Name.member, QualifiedName.toName, ht])

theorem QualifiedName.key?_eq_some_iff {K : String}
    (hend : n.function.toList.getLast? ≠ some '\n') :
    key? n.text = some K ↔ '\n' ∉ n.text.toList ∧ K = String.intercalate ":" n.parts := by
  constructor
  · intro h
    have hn := not_mem_newline_of_key? h (by rwa [n.getLast?_text])
    refine ⟨hn, ?_⟩
    rw [n.key?_text hn] at h
    exact (Option.some.inj h).symm
  · rintro ⟨hn, rfl⟩
    exact n.key?_text hn

/-! ### Names that share a key -/

/-- **The same parts make one name**, or two of which one blurs the other. -/
theorem QualifiedName.parts_eq_iff : n.parts = n'.parts ↔ n.SharesKey n' := by
  obtain ⟨path, package, type, function, _, _, _, _⟩ := n
  obtain ⟨path', package', type', function', _, _, _, _⟩ := n'
  -- two names have as many parts as they have a path and a type
  cases path <;> cases type <;> cases path' <;> cases type' <;>
    simp only [QualifiedName.parts, QualifiedName.SharesKey, QualifiedName.Blurs,
      QualifiedName.ext_iff] <;> grind

/-- A header of a qualified name has the key of the name. -/
theorem key_of_qualifiedName {r : FunctionRecord} (hr : r.qualifiedName = n.text)
    (hn : '\n' ∉ n.text.toList) : r.key = String.intercalate ":" n.parts := by
  rw [FunctionRecord.key, hr]
  exact key_of_key? (n.key?_text hn)

/-- **Two names share a key only if one blurs the other**, and only then does the header of one
displace the header of the other. -/
theorem keys_told_apart {K K' : String} (h : key? n.text = some K) (h' : key? n'.text = some K')
    (hend : n.function.toList.getLast? ≠ some '\n')
    (hend' : n'.function.toList.getLast? ≠ some '\n') :
    (K = K' ↔ n.SharesKey n') ∧
      ∀ r r' : FunctionRecord, r.qualifiedName = n.text → r'.qualifiedName = n'.text →
        ∀ (facts : Facts) (id id' : RecordId), id ≠ id' →
          (((facts.put r.key id).put r'.key id').table.get? r.key = some id ↔
            ¬ n.SharesKey n') := by
  obtain ⟨hn, rfl⟩ := (QualifiedName.key?_eq_some_iff hend).mp h
  obtain ⟨hn', rfl⟩ := (QualifiedName.key?_eq_some_iff hend').mp h'
  have hkeys : String.intercalate ":" n.parts = String.intercalate ":" n'.parts ↔
      n.SharesKey n' := by
    rw [← QualifiedName.parts_eq_iff]
    refine ⟨fun heq => ?_, congrArg _⟩
    exact eq_of_joined_eq (by simp [QualifiedName.parts]) (by simp [QualifiedName.parts])
      (fun _ => QualifiedName.not_mem_colon) (fun _ => QualifiedName.not_mem_colon) heq
  refine ⟨hkeys, fun r r' hr hr' facts id id' hid => ?_⟩
  rw [key_of_qualifiedName hr hn, key_of_qualifiedName hr' hn', ← hkeys, Facts.put, Facts.put]
  simp only [Ledger.get?_insert]
  by_cases heq : String.intercalate ":" n.parts = String.intercalate ":" n'.parts
  · simp [heq, hid.symm]
  · simp [heq, Ne.symm heq]

/-- `org/app.Run` -/
def runInPath : QualifiedName where
  path := some "org"
  package := "app"
  type := none
  function := "Run"
  path_isPartPath := by decide
  package_isPart := by decide
  type_isPart := by decide
  function_isPart := by decide

/-- `org.app.Run` -/
def runOfType : QualifiedName where
  path := none
  package := "org"
  type := some "app"
  function := "Run"
  path_isPartPath := by decide
  package_isPart := by decide
  type_isPart := by decide
  function_isPart := by decide

/-- `org.app.Run` with a newline -/
def runOfLine : QualifiedName where
  path := none
  package := "org"
  type := some "app"
  function := "Run\n"
  path_isPartPath := by decide
  package_isPart := by decide
  type_isPart := by decide
  function_isPart := by decide

theorem keys_told_apart_run :
    let r : FunctionRecord := { model := "m", function := "org/app.Run" }
    let r' : FunctionRecord := { model := "m", function := "org.app.Run" }
    key? runInPath.text = some "org:app:Run" ∧ key? runOfType.text = some "org:app:Run" ∧
      runInPath.SharesKey runOfType ∧
      ((Facts.empty.put r.key 0).put r'.key 1).table.get? r.key ≠ some 0 := by
  intro r r'
  have h : key? runInPath.text = some "org:app:Run" := by decide +kernel
  have h' : key? runOfType.text = some "org:app:Run" := by decide +kernel
  obtain ⟨hkeys, hput⟩ := keys_told_apart h h' (by decide) (by decide)
  have hshares := hkeys.mp rfl
  refine ⟨h, h', hshares, fun hget => ?_⟩
  exact (hput r r' (by decide) (by decide) .empty 0 1 (by decide)).mp hget hshares

/-- The names differ in their parts, and the header of the second takes the place of the first. -/
theorem keys_shared :
    runInPath ≠ runOfType ∧ key? runInPath.text = key? runOfType.text ∧
      runOfType ≠ runOfLine ∧ key? runOfType.text = key? runOfLine.text ∧
      (key? runOfType.text).isSome ∧
      ((Annotations.Reader.readSource {} .empty "main.go"
        "// ThreatSpec m for org/app.Run\n// ThreatSpec m for org.app.Run\n").1.duplicates = [0]) := by
  refine ⟨fun h => ?_, by decide +kernel, fun h => ?_, by decide +kernel, by decide +kernel,
    by decide +kernel⟩
  · exact absurd (congrArg QualifiedName.path h) (by decide)
  · exact absurd (congrArg QualifiedName.function h) (by decide)

end ThreatModel.FunctionName
