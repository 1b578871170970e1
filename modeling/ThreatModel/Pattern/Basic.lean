/-!
# Pattern — a text pattern with named fields

A pattern is read from the start of a text, and of the ways to read it the first counts: an alternative tries its left
side first, an eager repetition takes as many characters as it can and gives them back one by one, a lazy one takes as few
as it can.  A field keeps the text that its part of the pattern was read from.

`Pattern.run` is the search.  It hands every reading of a pattern, in order, to the rest of the search and stops at the
first that succeeds; `Pattern.readings` lists those readings.

* `run_eq_findSome?`: the search is the first success over the list of readings.
-/

namespace ThreatModel

/-- A text pattern whose fields are named by `κ`. -/
inductive Pattern (κ : Type) where
  /-- Nothing. -/
  | empty
  /-- Just this text. -/
  | lit (text : String)
  /-- One character of a class. -/
  | one (p : Char → Bool)
  /-- Characters of a class: any number of them, as many as possible if `eager`, else as few as possible. -/
  | many (eager : Bool) (p : Char → Bool)
  /-- The first pattern, then the second. -/
  | seq (a b : Pattern κ)
  /-- The first pattern, or else the second. -/
  | alt (a b : Pattern κ)
  /-- The pattern, its text kept in a field. -/
  | capture (field : κ) (a : Pattern κ)
  /-- The end of the text, or the newline that ends it. -/
  | finish

namespace Pattern

variable {κ α : Type}

instance : Coe String (Pattern κ) := ⟨lit⟩

/-- The patterns of a list, one after the other. -/
def chain : List (Pattern κ) → Pattern κ
  | []      => empty
  | [a]     => a
  | a :: as => seq a (chain as)

/-- The first pattern of a list that can be read. -/
def choice : List (Pattern κ) → Pattern κ
  | []      => empty
  | [a]     => a
  | a :: as => alt a (choice as)

/-- Any character but a newline. -/
def notNewline (c : Char) : Bool := c != '\n'

/-- One or more characters of a class. -/
def several (eager : Bool) (p : Char → Bool) : Pattern κ := seq (one p) (many eager p)

/-- The pattern if it can be read, else nothing. -/
def optional (a : Pattern κ) : Pattern κ := alt a empty

/-- A field for one or more characters, as few as possible. -/
def field (f : κ) : Pattern κ := capture f (several false notNewline)

/-- The fields of a pattern, in order of their opening. -/
def fields : Pattern κ → List κ
  | seq a b     => a.fields ++ b.fields
  | alt a b     => a.fields ++ b.fields
  | capture f a => f :: a.fields
  | _           => []

/-- A kept text: it reaches from `start` to where `rest` is left. -/
structure Span where
  start : List Char
  rest : List Char

/-- The characters between the two ends. -/
def Span.chars (s : Span) : List Char := s.start.take (s.start.length - s.rest.length)

theorem Span.chars_append (pre rest : List Char) : Span.chars ⟨pre ++ rest, rest⟩ = pre := by
  simp [Span.chars]

/-- The fields kept so far, last first. -/
abbrev Kept (κ : Type) : Type := List (κ × Span)

/-- What is left of the text after `t`. -/
def afterText? : List Char → List Char → Option (List Char)
  | [],     s      => some s
  | _ :: _, []     => none
  | c :: t, d :: s => if c = d then afterText? t s else none

theorem afterText?_append (t s : List Char) : afterText? t (t ++ s) = some s := by
  induction t with
  | nil => rfl
  | cons c t ih => simp [afterText?, ih]

theorem afterText?_eq_some_iff {t s r : List Char} : afterText? t s = some r ↔ s = t ++ r := by
  induction t generalizing s with
  | nil => simp [afterText?]
  | cons c t ih =>
    cases s with
    | nil => simp [afterText?]
    | cons d s => by_cases h : c = d <;> simp [afterText?, h, ih, eq_comm]

/-- The first success of `k` over what characters of `p` leave, the most taken first. -/
def eagerly (p : Char → Bool) (k : List Char → Option α) : List Char → Option α
  | []     => k []
  | c :: s => if p c then (eagerly p k s).or (k (c :: s)) else k (c :: s)

/-- The first success of `k` over what characters of `p` leave, the fewest taken first. -/
def lazily (p : Char → Bool) (k : List Char → Option α) : List Char → Option α
  | []     => k []
  | c :: s => (k (c :: s)).or (if p c then lazily p k s else none)

/-- The search: the first success of `k` over the readings of the pattern, in order. -/
def run : Pattern κ → (List Char → Kept κ → Option α) → List Char → Kept κ → Option α
  | empty, k, s, kept        => k s kept
  | lit t, k, s, kept        => (afterText? t.toList s).bind (k · kept)
  | one p, k, s, kept        =>
    match s with
    | []     => none
    | c :: r => if p c then k r kept else none
  | many true p, k, s, kept  => eagerly p (k · kept) s
  | many false p, k, s, kept => lazily p (k · kept) s
  | seq a b, k, s, kept      => a.run (b.run k) s kept
  | alt a b, k, s, kept      => (a.run k s kept).or (b.run k s kept)
  | capture f a, k, s, kept  => a.run (fun r kept => k r ((f, ⟨s, r⟩) :: kept)) s kept
  | finish, k, s, kept       => if s = [] ∨ s = ['\n'] then k s kept else none

/-- What characters of `p` leave, the most taken first. -/
def eagerRests (p : Char → Bool) : List Char → List (List Char)
  | []     => [[]]
  | c :: s => if p c then eagerRests p s ++ [c :: s] else [c :: s]

/-- What characters of `p` leave, the fewest taken first. -/
def lazyRests (p : Char → Bool) : List Char → List (List Char)
  | []     => [[]]
  | c :: s => (c :: s) :: if p c then lazyRests p s else []

/-- The readings of a pattern in order: what each leaves of the text, and the fields it keeps. -/
def readings : Pattern κ → List Char → Kept κ → List (List Char × Kept κ)
  | empty, s, kept        => [(s, kept)]
  | lit t, s, kept        => (afterText? t.toList s).toList.map (·, kept)
  | one p, s, kept        =>
    match s with
    | []     => []
    | c :: r => if p c then [(r, kept)] else []
  | many true p, s, kept  => (eagerRests p s).map (·, kept)
  | many false p, s, kept => (lazyRests p s).map (·, kept)
  | seq a b, s, kept      => (a.readings s kept).flatMap fun (r, kept) => b.readings r kept
  | alt a b, s, kept      => a.readings s kept ++ b.readings s kept
  | capture f a, s, kept  => (a.readings s kept).map fun (r, kept) => (r, (f, ⟨s, r⟩) :: kept)
  | finish, s, kept       => if s = [] ∨ s = ['\n'] then [(s, kept)] else []

theorem eagerly_eq_findSome? (p : Char → Bool) (k : List Char → Option α) (s : List Char) :
    eagerly p k s = (eagerRests p s).findSome? k := by
  induction s with
  | nil => simp [eagerly, eagerRests]
  | cons c s ih => by_cases h : p c <;> simp [eagerly, eagerRests, h, ih]

theorem lazily_eq_findSome? (p : Char → Bool) (k : List Char → Option α) (s : List Char) :
    lazily p k s = (lazyRests p s).findSome? k := by
  induction s with
  | nil => simp [lazily, lazyRests]
  | cons c s ih =>
    by_cases h : p c
    · cases hk : k (c :: s) <;> simp [lazily, lazyRests, h, ih, hk]
    · cases hk : k (c :: s) <;> simp [lazily, lazyRests, h, hk]

/-- **The search is the first success over the list of readings.** -/
theorem run_eq_findSome? (a : Pattern κ) (k : List Char → Kept κ → Option α) (s : List Char) (kept : Kept κ) :
    a.run k s kept = (a.readings s kept).findSome? fun (r, kept) => k r kept := by
  induction a generalizing k s kept with
  | empty => simp [run, readings]
  | lit t => cases h : afterText? t.toList s <;> simp [run, readings, h]
  | one p =>
    cases s with
    | nil => simp [run, readings]
    | cons c r => by_cases h : p c <;> simp [run, readings, h]
  | many eager p =>
    cases eager <;>
      simp [run, readings, eagerly_eq_findSome?, lazily_eq_findSome?, List.findSome?_map, Function.comp_def]
  | seq a b iha ihb =>
    simp only [run, readings, iha]
    induction a.readings s kept with
    | nil => simp
    | cons x xs ih =>
      rw [List.findSome?_cons, List.flatMap_cons, List.findSome?_append, ← ih, ihb]
      cases List.findSome? (fun (r, kept) => k r kept) (b.readings x.1 x.2) <;> rfl
  | alt a b iha ihb => simp [run, readings, iha, ihb, List.findSome?_append]
  | capture f a ih => simp [run, readings, ih, List.findSome?_map, Function.comp_def]
  | finish => by_cases h : s = [] ∨ s = ['\n'] <;> simp [run, readings, h]

/-- A reading of a whole pattern: the text of every field that took part. -/
abbrev Match (κ : Type) : Type := Kept κ

/-- The text that a field kept. -/
def Match.get? [DecidableEq κ] (m : Match κ) (f : κ) : Option String :=
  (m.find? (·.1 = f)).map fun x => String.ofList x.2.chars

/-- The text that a field kept, empty if it took no part. -/
def Match.get [DecidableEq κ] (m : Match κ) (f : κ) : String := (m.get? f).getD ""

/-- The first reading of the pattern at the start of the text. -/
def match? (a : Pattern κ) (s : String) : Option (Match κ) := a.run (fun _ kept => some kept) s.toList []

end Pattern

end ThreatModel
