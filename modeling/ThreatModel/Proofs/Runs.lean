import Mathlib.Algebra.GroupWithZero.Nat

/-!
# Runs — what a list of steps does, by what one step does

* `eq_foldl`: what no step changes, a run does not change.
* `measure_foldl`: a measure to which each step adds is raised by what the steps add together.
* `append_foldl`: a list to which each step adds is extended by what the steps add, in order.
* `bind_eq_ok_iff`: a computation that may fail succeeds when each of its parts does.
* `foldlM_ok`: what every step keeps, a run keeps that succeeds.
* `append_foldlM_ok`: a list to which each step adds, in a run that succeeds.
* `foldlM_eq_error_iff`: a run fails as its first step does that fails.
-/

namespace ThreatModel

variable {α β γ ε : Type}

/-- What no step changes, a run does not change. -/
theorem eq_foldl (view : β → γ) {step : β → α → β} (hstep : ∀ b a, view (step b a) = view b)
    (as : List α) (b : β) : view (as.foldl step b) = view b := by
  induction as generalizing b with
  | nil => rfl
  | cons a as ih => rw [List.foldl_cons, ih, hstep]

/-- A measure to which each step adds is raised by the sum of what the steps add. -/
theorem measure_foldl (measure : β → Nat) {added : α → Nat} {step : β → α → β}
    (hstep : ∀ b a, measure (step b a) = measure b + added a) (as : List α) (b : β) :
    measure (as.foldl step b) = measure b + (as.map added).sum := by
  induction as generalizing b with
  | nil => rfl
  | cons a as ih => rw [List.foldl_cons, ih, hstep, List.map_cons, List.sum_cons, Nat.add_assoc]

/-- A list to which each step adds is extended by what the steps add, in their order. -/
theorem append_foldl (view : β → List γ) {added : α → List γ} {step : β → α → β}
    (hstep : ∀ b a, view (step b a) = view b ++ added a) (as : List α) (b : β) :
    view (as.foldl step b) = view b ++ as.flatMap added := by
  induction as generalizing b with
  | nil => exact (List.append_nil _).symm
  | cons a as ih => rw [List.foldl_cons, ih, hstep, List.append_assoc, List.flatMap_cons]

theorem bind_eq_ok_iff {x : Except ε α} {next : α → Except ε β} {b : β} :
    x >>= next = .ok b ↔ ∃ a, x = .ok a ∧ next a = .ok b := by
  cases x with
  | error e =>
      refine ⟨nofun, ?_⟩
      rintro ⟨a, ha, -⟩
      cases ha
  | ok a =>
      refine ⟨fun h => ⟨a, rfl, h⟩, ?_⟩
      rintro ⟨_, ha, h⟩
      cases ha
      exact h

/-- What is made of a result in the end cannot fail. -/
theorem bind_ok_eq_error_iff {x : Except ε α} {k : α → β} {e : ε} :
    (x >>= fun a => .ok (k a)) = .error e ↔ x = .error e := by
  cases x with
  | error e' => exact ⟨fun h => by cases h; rfl, fun h => by cases h; rfl⟩
  | ok a => exact ⟨nofun, nofun⟩

/-- What each step keeps that succeeds, a run keeps that succeeds. -/
theorem foldlM_ok (holds : β → Prop) {step : β → α → Except ε β}
    (hstep : ∀ a b b', step b a = .ok b' → holds b → holds b') {as : List α} {b b' : β}
    (h : as.foldlM step b = .ok b') (hb : holds b) : holds b' := by
  induction as generalizing b with
  | nil =>
      cases h
      exact hb
  | cons a as ih =>
      rw [List.foldlM_cons, bind_eq_ok_iff] at h
      obtain ⟨b₁, hb₁, h⟩ := h
      exact ih h (hstep a b b₁ hb₁ hb)

/-- What succeeds does not fail. -/
theorem eq_none_of_ok {x : Except ε α} {fails? : Option ε}
    (h : ∀ e, x = .error e ↔ fails? = some e) {a : α} (hx : x = .ok a) : fails? = none := by
  cases hf : fails? with
  | none => rfl
  | some e =>
      rw [(h e).mpr hf] at hx
      cases hx

/-- If it does not depend on the state whether a step fails, a run fails as the first step does that
fails. -/
theorem foldlM_eq_error_iff {fails? : α → Option ε} {step : β → α → Except ε β}
    (hstep : ∀ b a e, step b a = .error e ↔ fails? a = some e) (as : List α) (b : β) (e : ε) :
    as.foldlM step b = .error e ↔ as.findSome? fails? = some e := by
  induction as generalizing b with
  | nil => exact ⟨nofun, nofun⟩
  | cons a as ih =>
      rw [List.foldlM_cons, List.findSome?_cons]
      cases hb : step b a with
      | error e' =>
          rw [(hstep b a e').mp hb]
          exact ⟨fun h => by cases h; rfl, fun h => by cases h; rfl⟩
      | ok b₁ =>
          rw [eq_none_of_ok (hstep b a) hb]
          exact ih b₁

/-- Of the steps only what they do to the elements of the list matters. -/
theorem foldlM_congr {step step' : β → α → Except ε β} {as : List α}
    (h : ∀ a ∈ as, ∀ b, step b a = step' b a) (b : β) : as.foldlM step b = as.foldlM step' b := by
  induction as generalizing b with
  | nil => rfl
  | cons a as ih =>
      rw [List.foldlM_cons, List.foldlM_cons, h a List.mem_cons_self]
      exact congrArg _ (funext fun b₁ => ih (fun a ha => h a (List.mem_cons_of_mem _ ha)) b₁)

/-- If each step that succeeds adds to a list, a run that succeeds adds what the steps add, in their
order. -/
theorem append_foldlM_ok (holds : List γ → β → Prop) {added : α → List γ}
    {step : β → α → Except ε β}
    (hstep : ∀ cs a b b', step b a = .ok b' → holds cs b → holds (cs ++ added a) b')
    {as : List α} {cs : List γ} {b b' : β} (h : as.foldlM step b = .ok b') (hb : holds cs b) :
    holds (cs ++ as.flatMap added) b' := by
  induction as generalizing cs b with
  | nil =>
      cases h
      rwa [List.flatMap_nil, List.append_nil]
  | cons a as ih =>
      rw [List.foldlM_cons, bind_eq_ok_iff] at h
      obtain ⟨b₁, hb₁, h⟩ := h
      rw [List.flatMap_cons, ← List.append_assoc]
      exact ih h (hstep cs a b b₁ hb₁ hb)

end ThreatModel
