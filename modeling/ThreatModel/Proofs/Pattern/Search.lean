import ThreatModel.Pattern.Basic

/-!
# Patterns — what a pattern can read, and what the search finds first

`Reads a s r` says that `a` can be read from the start of `s` so that `r` is left.  It forgets the
order of the readings and the fields they keep, and so it is what failure and success of a search
hang on: a search fails if what follows fails on everything the pattern can leave
(`run_eq_none`), and a pattern matches a text iff it can be read from it
(`match?_isSome_iff`).  A pattern without newlines reads no further than its line
(`Reads.oneLine`).

Which reading comes first is the matter of `lazily_append` and `eagerly_append`: a lazy
repetition goes on exactly as long as what follows fails, an eager one passes over every place
behind which what follows succeeds once more.  `run_field` is the lazy case at a field.

Whatever the search finds, its fields hold characters of the text only (`mem_of_mem_get`).

A text behind the searched one changes nothing in a search that never gets through to it
(`run_append`): every choice comes out as before, and the fields keep the same texts.
-/

namespace ThreatModel.Pattern

variable {κ α β : Type}

/-! ### Readings without their order -/

/-- `a` can be read from the start of `s`, and leaves `r`. -/
def Reads : Pattern κ → List Char → List Char → Prop
  | empty,       s, r => s = r
  | lit t,       s, r => s = t.toList ++ r
  | one p,       s, r => ∃ c, p c = true ∧ s = c :: r
  | many _ p,    s, r => ∃ u, (∀ c ∈ u, p c = true) ∧ s = u ++ r
  | seq a b,     s, r => ∃ m, a.Reads s m ∧ b.Reads m r
  | alt a b,     s, r => a.Reads s r ∨ b.Reads s r
  | capture _ a, s, r => a.Reads s r
  | finish,      s, r => s = r ∧ (s = [] ∨ s = ['\n'])

theorem mem_eagerRests {p : Char → Bool} {s r : List Char} :
    r ∈ eagerRests p s ↔ ∃ u, (∀ c ∈ u, p c = true) ∧ s = u ++ r := by
  induction s with
  | nil =>
      simp only [eagerRests, List.mem_singleton]
      refine ⟨?_, ?_⟩
      · rintro rfl; exact ⟨[], by simp, rfl⟩
      · rintro ⟨u, -, hu⟩; exact (List.append_eq_nil_iff.mp hu.symm).2
  | cons c s ih =>
      simp only [eagerRests]
      refine ⟨fun h => ?_, ?_⟩
      · by_cases hc : p c = true
        · rw [if_pos hc, List.mem_append, ih, List.mem_singleton] at h
          rcases h with ⟨u, hu, rfl⟩ | rfl
          · exact ⟨c :: u, by simpa [hc] using hu, rfl⟩
          · exact ⟨[], by simp, rfl⟩
        · rw [if_neg hc, List.mem_singleton] at h
          exact ⟨[], by simp, by simp [h]⟩
      · rintro ⟨u, hu, hs⟩
        cases u with
        | nil => split <;> simp_all
        | cons d u =>
            obtain ⟨rfl, rfl⟩ := List.cons.inj hs
            rw [if_pos (hu c (by simp)), List.mem_append, ih]
            exact .inl ⟨u, fun x hx => hu x (by simp [hx]), rfl⟩

theorem mem_lazyRests {p : Char → Bool} {s r : List Char} :
    r ∈ lazyRests p s ↔ r ∈ eagerRests p s := by
  induction s with
  | nil => rfl
  | cons c s ih =>
      by_cases hc : p c = true
      · simp [lazyRests, eagerRests, hc, ih, or_comm]
      · simp [lazyRests, eagerRests, hc]

/-- The readings of a pattern leave exactly what `Reads` says, whatever was kept before. -/
theorem reads_iff_mem_readings (a : Pattern κ) (s r : List Char) (kept : Kept κ) :
    a.Reads s r ↔ ∃ kept', (r, kept') ∈ a.readings s kept := by
  induction a generalizing s r kept with
  | empty => simp [Reads, readings, eq_comm]
  | lit t =>
      simp only [Reads, readings, ← afterText?_eq_some_iff]
      cases afterText? t.toList s <;> simp [eq_comm]
  | one p =>
      cases s with
      | nil => simp [Reads, readings]
      | cons c s =>
          simp only [Reads, readings, List.cons.injEq]
          by_cases hc : p c = true
          · rw [if_pos hc]
            refine ⟨?_, ?_⟩
            · rintro ⟨_, -, rfl, rfl⟩; exact ⟨kept, by simp⟩
            · rintro ⟨kept', h⟩; exact ⟨c, hc, rfl, by simp_all⟩
          · rw [if_neg hc]
            refine ⟨?_, ?_⟩
            · rintro ⟨_, hd, rfl, -⟩; exact absurd hd hc
            · rintro ⟨_, h⟩; exact absurd h (by simp)
  | many eager p =>
      have hmap : (∃ kept', (r, kept') ∈ (many eager p).readings s kept) ↔ r ∈ eagerRests p s := by
        cases eager <;> simp only [readings, List.mem_map, Prod.mk.injEq, mem_lazyRests]
        all_goals
          refine ⟨?_, ?_⟩
          · rintro ⟨_, _, h, rfl, -⟩; exact h
          · intro h; exact ⟨kept, r, h, rfl, rfl⟩
      rw [hmap, mem_eagerRests, Reads]
  | seq a b iha ihb =>
      simp only [Reads, readings, List.mem_flatMap, Prod.exists]
      refine ⟨?_, ?_⟩
      · rintro ⟨m, ha, hb⟩
        obtain ⟨kept₁, h₁⟩ := (iha s m kept).mp ha
        obtain ⟨kept₂, h₂⟩ := (ihb m r kept₁).mp hb
        exact ⟨kept₂, m, kept₁, h₁, h₂⟩
      · rintro ⟨kept₂, m, kept₁, h₁, h₂⟩
        exact ⟨m, (iha s m kept).mpr ⟨kept₁, h₁⟩, (ihb m r kept₁).mpr ⟨kept₂, h₂⟩⟩
  | alt a b iha ihb =>
      simp only [Reads, readings, List.mem_append, exists_or, ← iha, ← ihb]
  | capture f a ih =>
      rw [Reads, ih s r kept]
      simp only [readings, List.mem_map, Prod.mk.injEq, Prod.exists]
      refine ⟨?_, ?_⟩
      · rintro ⟨kept', h⟩; exact ⟨_, r, kept', h, rfl, rfl⟩
      · rintro ⟨_, _, kept', h, rfl, -⟩; exact ⟨kept', h⟩
  | finish =>
      by_cases h : s = [] ∨ s = ['\n']
      · simp [Reads, readings, h, eq_comm]
      · simp [Reads, readings, h]

theorem reads_several {eager : Bool} {p : Char → Bool} {s r : List Char} :
    (several eager p : Pattern κ).Reads s r ↔ ∃ u, u ≠ [] ∧ (∀ c ∈ u, p c = true) ∧ s = u ++ r := by
  constructor
  · rintro ⟨_, ⟨c, hc, rfl⟩, u, hu, rfl⟩
    exact ⟨c :: u, by simp, by simpa [hc] using hu, rfl⟩
  · rintro ⟨u, hne, hu, rfl⟩
    obtain ⟨c, u, rfl⟩ := List.exists_cons_of_ne_nil hne
    exact ⟨u ++ r, ⟨c, hu c (by simp), rfl⟩, u, fun d hd => hu d (by simp [hd]), rfl⟩

theorem notNewline_of_not_mem {u : List Char} (hn : '\n' ∉ u) : ∀ c ∈ u, notNewline c = true :=
  fun _ hc => bne_iff_ne.mpr fun e => hn (e ▸ hc)

theorem reads_field {f : κ} {u r : List Char} (hu : u ≠ []) (hn : '\n' ∉ u) :
    (field f).Reads (u ++ r) r :=
  reads_several.mpr ⟨u, hu, notNewline_of_not_mem hn, rfl⟩

/-- What a pattern leaves is the end of the text. -/
theorem Reads.suffix {a : Pattern κ} {s r : List Char} (h : a.Reads s r) : r <:+ s := by
  induction a generalizing s r with
  | empty => cases h; exact List.suffix_refl _
  | lit t => cases h; exact List.suffix_append _ _
  | one p => obtain ⟨c, -, rfl⟩ := h; exact List.suffix_cons _ _
  | many _ p => obtain ⟨u, -, rfl⟩ := h; exact List.suffix_append _ _
  | seq a b iha ihb =>
      obtain ⟨m, ha, hb⟩ := h
      exact (ihb hb).trans (iha ha)
  | alt a b iha ihb => exact h.elim iha ihb
  | capture f a ih => exact ih h
  | finish => cases h.1; exact List.suffix_refl _

/-- No text and no class of the pattern has a newline. -/
def OneLine : Pattern κ → Prop
  | empty       => True
  | lit t       => '\n' ∉ t.toList
  | one p       => p '\n' = false
  | many _ p    => p '\n' = false
  | seq a b     => a.OneLine ∧ b.OneLine
  | alt a b     => a.OneLine ∧ b.OneLine
  | capture _ a => a.OneLine
  | finish      => True

/-- A pattern without newlines reads within one line. -/
theorem Reads.oneLine {a : Pattern κ} {s r : List Char} (ha : a.OneLine) (h : a.Reads s r) :
    ∃ u, '\n' ∉ u ∧ s = u ++ r := by
  induction a generalizing s r with
  | empty => exact ⟨[], List.not_mem_nil, h⟩
  | lit t => exact ⟨t.toList, ha, h⟩
  | one p =>
      obtain ⟨c, hc, rfl⟩ := h
      refine ⟨[c], fun hm => ?_, rfl⟩
      obtain rfl := List.mem_singleton.mp hm
      exact absurd (ha.symm.trans hc) Bool.false_ne_true
  | many _ p =>
      obtain ⟨u, hu, rfl⟩ := h
      exact ⟨u, fun hm => absurd (ha.symm.trans (hu _ hm)) Bool.false_ne_true, rfl⟩
  | seq a b iha ihb =>
      obtain ⟨m, ham, hmb⟩ := h
      obtain ⟨u, hu, rfl⟩ := iha ha.1 ham
      obtain ⟨v, hv, rfl⟩ := ihb ha.2 hmb
      exact ⟨u ++ v, by simp [hu, hv], (List.append_assoc ..).symm⟩
  | alt a b iha ihb => exact h.elim (iha ha.1) (ihb ha.2)
  | capture _ a ih => exact ih ha h
  | finish => exact ⟨[], List.not_mem_nil, h.1⟩

/-! ### Readings with the fields they keep -/

section
variable {s r : List Char} {kept kept' : Kept κ}

theorem mem_readings_chain_cons {a b : Pattern κ} {as : List (Pattern κ)} :
    (r, kept') ∈ (chain (a :: b :: as)).readings s kept ↔
      ∃ m kept₁, (m, kept₁) ∈ a.readings s kept ∧
        (r, kept') ∈ (chain (b :: as)).readings m kept₁ := by
  simp [chain, readings]

theorem chain_singleton (a : Pattern κ) : chain [a] = a := rfl

theorem mem_readings_lit {t : String} :
    (r, kept') ∈ (lit t).readings s kept ↔ s = t.toList ++ r ∧ kept' = kept := by
  rw [← afterText?_eq_some_iff]
  cases h : afterText? t.toList s <;> simp [readings, h, eq_comm]

theorem mem_readings_optional {a : Pattern κ} :
    (r, kept') ∈ (optional a).readings s kept ↔
      (r, kept') ∈ a.readings s kept ∨ r = s ∧ kept' = kept := by
  simp [optional, readings]

theorem mem_readings_one {p : Char → Bool} :
    (r, kept') ∈ (one p).readings s kept ↔ ∃ c, p c = true ∧ s = c :: r ∧ kept' = kept := by
  cases s with
  | nil => simp [readings]
  | cons c s =>
      by_cases hc : p c = true
      · simp only [readings, if_pos hc, List.mem_singleton, Prod.mk.injEq, List.cons.injEq]
        constructor
        · rintro ⟨rfl, rfl⟩
          exact ⟨c, hc, ⟨rfl, rfl⟩, rfl⟩
        · rintro ⟨_, -, ⟨-, rfl⟩, rfl⟩
          exact ⟨rfl, rfl⟩
      · simp only [readings, if_neg hc, List.not_mem_nil, false_iff, List.cons.injEq]
        rintro ⟨_, hp, ⟨rfl, -⟩, -⟩
        exact hc hp

theorem mem_readings_many {eager : Bool} {p : Char → Bool} :
    (r, kept') ∈ (many eager p).readings s kept ↔
      (∃ u, (∀ c ∈ u, p c = true) ∧ s = u ++ r) ∧ kept' = kept := by
  rw [← mem_eagerRests]
  have hmap : ∀ rests : List (List Char),
      (r, kept') ∈ rests.map (·, kept) ↔ r ∈ rests ∧ kept' = kept := by
    intro rests
    simp only [List.mem_map, Prod.mk.injEq]
    constructor
    · rintro ⟨_, hr, rfl, rfl⟩
      exact ⟨hr, rfl⟩
    · rintro ⟨hr, rfl⟩
      exact ⟨r, hr, rfl, rfl⟩
  cases eager with
  | true => exact hmap _
  | false => rw [← mem_lazyRests]; exact hmap _

theorem mem_readings_capture_several {f : κ} {eager : Bool} {p : Char → Bool} :
    (r, kept') ∈ (capture f (several eager p)).readings s kept ↔
      ∃ u, u ≠ [] ∧ (∀ c ∈ u, p c = true) ∧ s = u ++ r ∧ kept' = (f, ⟨u ++ r, r⟩) :: kept := by
  simp only [readings, several, List.mem_map, Prod.mk.injEq, Prod.exists, List.mem_flatMap]
  constructor
  · rintro ⟨_, _, ⟨m, _, hone, hmany⟩, rfl, rfl⟩
    obtain ⟨c, hc, rfl, rfl⟩ := mem_readings_one.mp hone
    obtain ⟨⟨u, hu, rfl⟩, rfl⟩ := mem_readings_many.mp hmany
    exact ⟨c :: u, by simp, by simpa [hc] using hu, rfl, rfl⟩
  · rintro ⟨u, hne, hu, rfl, rfl⟩
    obtain ⟨c, u, rfl⟩ := List.exists_cons_of_ne_nil hne
    refine ⟨r, kept, ⟨u ++ r, kept, ?_, ?_⟩, rfl, rfl⟩
    · exact mem_readings_one.mpr ⟨c, hu c (by simp), rfl, rfl⟩
    · exact mem_readings_many.mpr ⟨⟨u, fun d hd => hu d (by simp [hd]), rfl⟩, rfl⟩

theorem mem_readings_finish :
    (r, kept') ∈ (finish : Pattern κ).readings s kept ↔
      (s = [] ∨ s = ['\n']) ∧ r = s ∧ kept' = kept := by
  by_cases h : s = [] ∨ s = ['\n'] <;> simp [readings, h]

end

/-! ### Failure and success -/

/-- A search that succeeds does so after a reading. -/
theorem exists_mem_of_run {a : Pattern κ} {k : List Char → Kept κ → Option α} {s : List Char}
    {kept : Kept κ} {x : α} (h : a.run k s kept = some x) :
    ∃ r kept', (r, kept') ∈ a.readings s kept ∧ k r kept' = some x := by
  rw [run_eq_findSome?] at h
  obtain ⟨⟨r, kept'⟩, hm, hk⟩ := List.exists_of_findSome?_eq_some h
  exact ⟨r, kept', hm, hk⟩

/-- A search that succeeds does so after something the pattern can leave. -/
theorem exists_reads_of_run {a : Pattern κ} {k : List Char → Kept κ → Option α} {s : List Char}
    {kept : Kept κ} {x : α} (h : a.run k s kept = some x) :
    ∃ r kept', a.Reads s r ∧ k r kept' = some x := by
  obtain ⟨r, kept', hm, hk⟩ := exists_mem_of_run h
  exact ⟨r, kept', (reads_iff_mem_readings a s r kept).mpr ⟨kept', hm⟩, hk⟩

/-- What can be read is found if nothing is to follow. -/
theorem isSome_run_of_reads {a : Pattern κ} {s r : List Char} (h : a.Reads s r) (kept : Kept κ) :
    (a.run (fun _ kept => some kept) s kept).isSome := by
  obtain ⟨kept', hm⟩ := (reads_iff_mem_readings a s r kept).mp h
  rw [run_eq_findSome?, List.findSome?_isSome_iff]
  exact ⟨_, hm, rfl⟩

/-- **A search fails if what follows fails on everything the pattern can leave.** -/
theorem run_eq_none {a : Pattern κ} {k : List Char → Kept κ → Option α} {s : List Char}
    {kept : Kept κ} (h : ∀ r, a.Reads s r → ∀ kept', k r kept' = none) :
    a.run k s kept = none := by
  cases hr : a.run k s kept with
  | none => rfl
  | some x =>
      obtain ⟨r, kept', hs, hk⟩ := exists_reads_of_run hr
      rw [h r hs kept'] at hk
      cases hk

/-- **A pattern matches a text iff it can be read from its start.** -/
theorem match?_isSome_iff {a : Pattern κ} {s : String} :
    (a.match? s).isSome ↔ ∃ r, a.Reads s.toList r := by
  refine ⟨fun h => ?_, ?_⟩
  · obtain ⟨m, hm⟩ := Option.isSome_iff_exists.mp h
    obtain ⟨r, -, hr, -⟩ := exists_reads_of_run hm
    exact ⟨r, hr⟩
  · rintro ⟨r, hr⟩
    exact isSome_run_of_reads hr []

/-! ### The first reading -/

/-- A lazy repetition goes past characters behind which what follows fails. -/
theorem lazily_append {p : Char → Bool} {k : List Char → Option α} {u v : List Char}
    (hu : ∀ c ∈ u, p c = true) (hk : ∀ a b, u = a ++ b → b ≠ [] → k (b ++ v) = none) :
    lazily p k (u ++ v) = lazily p k v := by
  induction u with
  | nil => rfl
  | cons c u ih =>
      have hc : k (c :: (u ++ v)) = none := hk [] (c :: u) rfl (by simp)
      rw [List.cons_append, lazily, hc, Option.none_or, if_pos (hu c (by simp))]
      exact ih (fun x hx => hu x (by simp [hx])) fun a b hab => hk (c :: a) b (by simp [hab])

/-- A lazy repetition ends where what follows succeeds. -/
theorem lazily_of_some {p : Char → Bool} {k : List Char → Option α} {s : List Char} {x : α}
    (h : k s = some x) : lazily p k s = some x := by
  cases s with
  | nil => exact h
  | cons c s => simp [lazily, h]

/-- An eager repetition passes over characters if it succeeds behind them. -/
theorem eagerly_append {p : Char → Bool} {k : List Char → Option α} {u v : List Char} {x : α}
    (hu : ∀ c ∈ u, p c = true) (h : eagerly p k v = some x) : eagerly p k (u ++ v) = some x := by
  induction u with
  | nil => exact h
  | cons c u ih =>
      rw [List.cons_append, eagerly, if_pos (hu c (by simp)), ih fun y hy => hu y (by simp [hy])]
      rfl

/-- An eager repetition takes all it can if what follows fails wherever it could go on. -/
theorem eagerly_eq_dropWhile {p : Char → Bool} {k : List Char → Option α}
    (hk : ∀ c s, p c = true → k (c :: s) = none) (s : List Char) :
    eagerly p k s = k (s.dropWhile p) := by
  induction s with
  | nil => rfl
  | cons c s ih =>
      by_cases hc : p c = true
      · rw [eagerly, if_pos hc, ih, hk c s hc, Option.or_none, List.dropWhile_cons_of_pos hc]
      · rw [eagerly, if_neg hc, List.dropWhile_cons_of_neg hc]

/-- An eager repetition takes nothing if what follows fails wherever it takes something. -/
theorem eagerly_of_some {p : Char → Bool} {k : List Char → Option α} {s : List Char} {x : α}
    (h : k s = some x) (hk : ∀ r, r <:+ s.tail → k r = none) : eagerly p k s = some x := by
  cases s with
  | nil => exact h
  | cons c s =>
      have hs : eagerly p k s = none := by
        rw [eagerly_eq_findSome?, List.findSome?_eq_none_iff]
        intro r hr
        obtain ⟨u, -, rfl⟩ := mem_eagerRests.mp hr
        exact hk r (List.suffix_append u r)
      simp only [eagerly, hs, h, Option.none_or, ite_self]

/-! ### Searches one after the other -/

/-- The search ends here, with the fields kept so far. -/
def keep : List Char → Kept κ → Option (Match κ) := fun _ kept => some kept

theorem run_chain_cons (a b : Pattern κ) (as : List (Pattern κ))
    (k : List Char → Kept κ → Option α) (s : List Char) (kept : Kept κ) :
    (chain (a :: b :: as)).run k s kept = a.run ((chain (b :: as)).run k) s kept := rfl

/-- What is made of the first reading can be made before the search stops at it. -/
theorem run_map (g : α → β) (a : Pattern κ) (k : List Char → Kept κ → Option α) (s : List Char)
    (kept : Kept κ) : (a.run k s kept).map g = a.run (fun r kept => (k r kept).map g) s kept := by
  rw [run_eq_findSome?, run_eq_findSome?, List.map_findSome?]
  rfl

/-- The search of a literal text that is there. -/
theorem run_lit (t : String) (k : List Char → Kept κ → Option α) (s : List Char) (kept : Kept κ) :
    (lit t).run k (t.toList ++ s) kept = k s kept := by
  simp [run, afterText?_append]

/-- The search of a literal text fails where its first character does not stand. -/
theorem run_lit_of_head?_ne {t : String} {c : Char} {cs : List Char} (ht : t.toList = c :: cs)
    {k : List Char → Kept κ → Option α} {s : List Char} {kept : Kept κ} (h : s.head? ≠ some c) :
    (lit t).run k s kept = none := by
  have hnone : afterText? (c :: cs) s = none := by
    cases s with
    | nil => rfl
    | cons d s => exact if_neg fun e => h (by rw [List.head?_cons, e])
  rw [run, ht, hnone]
  rfl

/-- The search of an optional pattern that leads nowhere. -/
theorem run_optional_of_none {a : Pattern κ} {k : List Char → Kept κ → Option α}
    {s : List Char} {kept : Kept κ} (h : a.run k s kept = none) :
    (optional a).run k s kept = k s kept := by
  simp [optional, run, h]

/-- The search of an optional pattern that succeeds. -/
theorem run_optional_of_some {a : Pattern κ} {k : List Char → Kept κ → Option α}
    {s : List Char} {kept : Kept κ} {x : α} (h : a.run k s kept = some x) :
    (optional a).run k s kept = some x := by
  simp [optional, run, h]

/-- **A field takes the text in front of the first place where what follows succeeds.** -/
theorem run_field {f : κ} {k : List Char → Kept κ → Option α} {u v : List Char} {kept : Kept κ}
    {x : α} (hu : u ≠ []) (hn : '\n' ∉ u)
    (hk : ∀ a b, u = a ++ b → a ≠ [] → b ≠ [] → ∀ kept', k (b ++ v) kept' = none)
    (h : k v ((f, ⟨u ++ v, v⟩) :: kept) = some x) : (field f).run k (u ++ v) kept = some x := by
  obtain ⟨c, u, rfl⟩ := List.exists_cons_of_ne_nil hu
  have hp := notNewline_of_not_mem hn
  simp only [field, several, run, List.cons_append, hp c (by simp), if_true]
  rw [lazily_append (fun d hd => hp d (by simp [hd])) fun a b hab hb =>
    hk (c :: a) b (by simp [hab]) (by simp) hb _]
  exact lazily_of_some h

/-- A lazy repetition takes the characters in front of the first place where what follows
succeeds. -/
theorem run_many_lazy {p : Char → Bool} {k : List Char → Kept κ → Option α} {u v : List Char}
    {kept : Kept κ} {x : α} (hu : ∀ c ∈ u, p c = true)
    (hk : ∀ a b, u = a ++ b → b ≠ [] → k (b ++ v) kept = none) (h : k v kept = some x) :
    (many false p).run k (u ++ v) kept = some x :=
  (lazily_append hu hk).trans (lazily_of_some h)

/-- An eager one takes as many as there are. -/
theorem run_many {p : Char → Bool} {k : List Char → Kept κ → Option α} {u v : List Char}
    {kept : Kept κ} {x : α} (hu : ∀ c ∈ u, p c = true) (hv : ∀ c ∈ v.head?, p c = false)
    (h : k v kept = some x) : (many true p).run k (u ++ v) kept = some x := by
  refine eagerly_append hu ?_
  cases v with
  | nil => exact h
  | cons d v => simpa [eagerly, hv d rfl] using h

theorem run_several {p : Char → Bool} {k : List Char → Kept κ → Option α} {u v : List Char}
    {kept : Kept κ} {x : α} (hne : u ≠ []) (hu : ∀ c ∈ u, p c = true)
    (hv : ∀ c ∈ v.head?, p c = false) (h : k v kept = some x) :
    (several true p).run k (u ++ v) kept = some x := by
  obtain ⟨c, u, rfl⟩ := List.exists_cons_of_ne_nil hne
  obtain ⟨hc, hu⟩ := List.forall_mem_cons.mp hu
  rw [several, run, List.cons_append, run, if_pos hc]
  exact run_many hu hv h

/-- A field for as many characters of a class as there are. -/
theorem run_capture_several {f : κ} {p : Char → Bool} {k : List Char → Kept κ → Option α}
    {u v : List Char} {kept : Kept κ} {x : α} (hne : u ≠ []) (hu : ∀ c ∈ u, p c = true)
    (hv : ∀ c ∈ v.head?, p c = false) (h : k v ((f, ⟨u ++ v, v⟩) :: kept) = some x) :
    (capture f (several true p)).run k (u ++ v) kept = some x :=
  run_several (k := fun r kept => k r ((f, ⟨u ++ v, r⟩) :: kept)) hne hu hv h

/-! ### The fields of a match -/

theorem Match.get?_cons_self [DecidableEq κ] (m : Match κ) (f : κ) (u v : List Char) :
    Match.get? ((f, ⟨u ++ v, v⟩) :: m) f = some (String.ofList u) := by
  simp [Match.get?, Span.chars_append]

theorem Match.get?_cons_of_ne [DecidableEq κ] (m : Match κ) {f g : κ} (s : Span) (h : g ≠ f) :
    Match.get? ((g, s) :: m) f = m.get? f := by
  simp [Match.get?, h]

/-- A field that the pattern does not have stays as it was kept. -/
theorem get?_of_mem_readings [DecidableEq κ] {a : Pattern κ} {f : κ} (hf : f ∉ a.fields)
    {s r : List Char} {kept kept' : Kept κ} (h : (r, kept') ∈ a.readings s kept) :
    Match.get? kept' f = Match.get? kept f := by
  induction a generalizing s r kept kept' with
  | empty => rw [(Prod.mk.inj (List.mem_singleton.mp h)).2]
  | lit t => rw [(mem_readings_lit.mp h).2]
  | one p =>
      obtain ⟨_, -, -, rfl⟩ := mem_readings_one.mp h
      rfl
  | many eager p => rw [(mem_readings_many.mp h).2]
  | seq a b iha ihb =>
      rw [fields, List.mem_append, not_or] at hf
      obtain ⟨⟨m, kept₁⟩, ha, hb⟩ := List.mem_flatMap.mp h
      exact (ihb hf.2 hb).trans (iha hf.1 ha)
  | alt a b iha ihb =>
      rw [fields, List.mem_append, not_or] at hf
      exact (List.mem_append.mp h).elim (iha hf.1) (ihb hf.2)
  | capture g a ih =>
      rw [fields, List.mem_cons, not_or] at hf
      obtain ⟨⟨m, kept₁⟩, ha, heq⟩ := List.mem_map.mp h
      cases heq
      rw [Match.get?_cons_of_ne _ _ (Ne.symm hf.1), ih hf.2 ha]
  | finish => rw [(mem_readings_finish.mp h).2.2]

/-- The text of a field begins within the text that was read. -/
theorem suffix_of_mem_kept {a : Pattern κ} {s r : List Char} {kept kept' : Kept κ} {x : κ × Span}
    (h : (r, kept') ∈ a.readings s kept) (hx : x ∈ kept') : x ∈ kept ∨ x.2.start <:+ s := by
  induction a generalizing s r kept kept' with
  | empty =>
      cases List.mem_singleton.mp h
      exact .inl hx
  | lit t =>
      obtain ⟨-, rfl⟩ := mem_readings_lit.mp h
      exact .inl hx
  | one p =>
      obtain ⟨_, -, -, rfl⟩ := mem_readings_one.mp h
      exact .inl hx
  | many eager p =>
      obtain ⟨-, rfl⟩ := mem_readings_many.mp h
      exact .inl hx
  | seq a b iha ihb =>
      obtain ⟨⟨m, kept₁⟩, ha, hb⟩ := List.mem_flatMap.mp h
      have hm : m <:+ s := ((reads_iff_mem_readings a s m kept).mpr ⟨kept₁, ha⟩).suffix
      rcases ihb hb hx with hx | hx
      · exact iha ha hx
      · exact .inr (hx.trans hm)
  | alt a b iha ihb => exact (List.mem_append.mp h).elim (iha · hx) (ihb · hx)
  | capture f a ih =>
      obtain ⟨⟨m, kept₁⟩, ha, heq⟩ := List.mem_map.mp h
      cases heq
      rcases List.mem_cons.mp hx with rfl | hx
      · exact .inr (List.suffix_refl s)
      · exact ih ha hx
  | finish =>
      obtain ⟨-, -, rfl⟩ := mem_readings_finish.mp h
      exact .inl hx

/-- **A field holds characters of the text only.** -/
theorem mem_of_mem_get [DecidableEq κ] {a : Pattern κ} {s : String} {m : Match κ}
    (h : a.match? s = some m) {f : κ} {c : Char} (hc : c ∈ (m.get f).toList) : c ∈ s.toList := by
  obtain ⟨r, kept, hread, hkept⟩ := exists_mem_of_run h
  cases hkept
  rw [Match.get, Match.get?] at hc
  cases hfind : m.find? (·.1 = f) with
  | none =>
      rw [hfind] at hc
      cases hc
  | some x =>
      rw [hfind, Option.map_some, Option.getD_some, String.toList_ofList] at hc
      rcases suffix_of_mem_kept hread (List.mem_of_find?_eq_some hfind) with hx | hx
      · cases hx
      · exact hx.subset (List.mem_of_mem_take hc)

/-! ### A text behind the text -/

/-- No part of the pattern asks where the text ends. -/
def Endless : Pattern κ → Prop
  | finish      => False
  | seq a b     => a.Endless ∧ b.Endless
  | alt a b     => a.Endless ∧ b.Endless
  | capture _ a => a.Endless
  | _           => True

/-- The fields as they are kept of the text when `t` stands behind it. -/
def keptBefore (t : List Char) (kept : Kept κ) : Kept κ :=
  kept.map fun (f, s) => (f, ⟨s.start ++ t, s.rest ++ t⟩)

theorem Match.get?_keptBefore [DecidableEq κ] (t : List Char) (m : Kept κ) (f : κ) :
    Match.get? (keptBefore t m) f = Match.get? m f := by
  have hchars : ∀ s : Span, Span.chars ⟨s.start ++ t, s.rest ++ t⟩ = s.chars := fun s => by
    simp only [Span.chars, List.length_append, Nat.add_sub_add_right]
    exact List.take_append_of_le_length (Nat.sub_le ..)
  simp [Match.get?, keptBefore, List.find?_map, Function.comp_def, hchars]

section
variable {k k' : List Char → Kept κ → Option α} {s t : List Char} {kept kept' : Kept κ}

/-- The search through a repetition, with a text behind in which what follows fails. -/
theorem run_many_append {eager : Bool} {p : Char → Bool}
    (h : ∀ r, r <:+ s → k' (r ++ t) kept' = k r kept)
    (hnone : ∀ r, r <:+ t → ∀ kept, k' r kept = none) :
    (many eager p).run k' (s ++ t) kept' = (many eager p).run k s kept := by
  induction s with
  | nil =>
      have hk : (many eager p).run k [] kept = k [] kept := by cases eager <;> rfl
      rw [hk, ← h [] (List.suffix_refl []), List.nil_append, hnone t (List.suffix_refl t)]
      exact run_eq_none fun r hr => hnone r hr.suffix
  | cons c s ih =>
      have ih := ih fun r hr => h r (hr.trans (List.suffix_cons c s))
      have hstay := h (c :: s) (List.suffix_refl _)
      cases eager <;> simp only [run, List.cons_append, eagerly, lazily] at ih hstay ⊢ <;>
        rw [ih, hstay]

/-- **A text behind changes no search**, if what follows the pattern fails everywhere in it. -/
theorem run_append {a : Pattern κ} (ha : a.Endless)
    (h : ∀ r, r <:+ s → ∀ kept, k' (r ++ t) (keptBefore t kept) = k r kept)
    (hnone : ∀ r, r <:+ t → ∀ kept, k' r kept = none) :
    a.run k' (s ++ t) (keptBefore t kept) = a.run k s kept := by
  -- what follows is general, since behind the first part of a `seq` the second one follows
  induction a generalizing k k' s kept with
  | empty => exact h s (List.suffix_refl s) kept
  | lit text =>
      simp only [run]
      cases hs : afterText? text.toList s with
      | some r =>
          obtain rfl := afterText?_eq_some_iff.mp hs
          rw [List.append_assoc, afterText?_append]
          exact h r (List.suffix_append ..) kept
      | none =>
          cases hst : afterText? text.toList (s ++ t) with
          | none => rfl
          | some r =>
              -- the literal text ends in the text behind
              rcases List.append_eq_append_iff.mp (afterText?_eq_some_iff.mp hst) with
                ⟨b, -, rfl⟩ | ⟨b, rfl, -⟩
              · exact hnone r (List.suffix_append ..) _
              · rw [afterText?_append] at hs
                cases hs
  | one p =>
      cases s with
      | nil => exact run_eq_none fun r hr => hnone r hr.suffix
      | cons c s =>
          simp only [run, List.cons_append, h s (List.suffix_cons c s)]
  | many eager p => exact run_many_append (fun r hr => h r hr kept) hnone
  | seq a b iha ihb =>
      exact iha ha.1 (fun r hr kept => ihb ha.2 (fun r' hr' => h r' (hr'.trans hr)) hnone)
        fun r hr kept => run_eq_none fun r' hr' => hnone r' (hr'.suffix.trans hr)
  | alt a b iha ihb => simp only [run, iha ha.1 h hnone, ihb ha.2 h hnone]
  | capture f a ih =>
      exact ih ha (fun r hr kept => h r hr ((f, ⟨s, r⟩) :: kept)) fun r hr kept => hnone r hr _
  | finish => exact ha.elim

end

end ThreatModel.Pattern
