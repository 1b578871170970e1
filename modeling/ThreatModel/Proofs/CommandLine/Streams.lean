import ThreatModel.Proofs.CommandLine.Steps

/-!
# Streams — no step looks at what is printed

A session prints but never reads what it printed, so a step does the same behind any output: it
returns the same value or stops for the same reason, it leaves the same files, and it prints the
same text behind whatever stood there.  `Behind text c c'` relates two consoles of which the second
has printed `text` before; the error streams, and whether events are printed on them, may differ.
`Oblivious` is the property of a step that keeps the relation; it goes through `bind`
(`Oblivious.bind`), so that it holds of the diagram because it holds of each of its steps
(`oblivious_diagram`).

Preparing prints nothing on the output and writes no file (`Silent`), so commands on the same files
come out of it with the same settings and facts, or stop for the same reason (`prepare_alike`).
-/

namespace ThreatModel.CommandLine

/-- The second console has the same files, and a text before the same output. -/
structure Console.Behind (text : String) (c c' : Console) : Prop where
  files : c'.files = c.files
  out : c'.out = text ++ c.out

/-- The files are these, and nothing is printed on the output. -/
structure Console.Untouched (t : FileTree) (c : Console) : Prop where
  files : c.files = t
  out : c.out = ""

namespace Console.Behind

theorem of_eq {c c' : Console} (hfiles : c'.files = c.files) (hout : c'.out = c.out) :
    Behind "" c c' :=
  ⟨hfiles, hout.trans String.empty_append.symm⟩

theorem trans {s₁ s₂ : String} {c₁ c₂ c₃ : Console} (h₁ : Behind s₁ c₁ c₂) (h₂ : Behind s₂ c₂ c₃) :
    Behind (s₂ ++ s₁) c₁ c₃ :=
  ⟨h₂.files.trans h₁.files, by rw [h₂.out, h₁.out, String.append_assoc]⟩

theorem untouched {t : FileTree} {c c' : Console} (h : Behind "" c c') (hc : c.Untouched t) :
    c'.Untouched t :=
  ⟨h.files.trans hc.files, by rw [h.out, hc.out, String.empty_append]⟩

end Console.Behind

namespace Session

variable {α β : Type} {text : String} {c c' : Console}

/-- The results are the same but for the text before the output. -/
def Alike (text : String) : EStateM.Result Stop Console α → EStateM.Result Stop Console α → Prop
  | .ok a c,    .ok a' c'    => a' = a ∧ c.Behind text c'
  | .error e c, .error e' c' => e' = e ∧ c.Behind text c'
  | _,          _            => False

/-- A step that does the same behind any output. -/
def Oblivious (x : Session α) : Prop :=
  ∀ text c c', Console.Behind text c c' → Alike text (x c) (x c')

/-- The console that a step leaves. -/
def consoleOf : EStateM.Result Stop Console α → Console
  | .ok _ c    => c
  | .error _ c => c

/-- A step that prints nothing on the output and writes no file. -/
def Silent (x : Session α) : Prop := ∀ c, Console.Behind "" c (consoleOf (x c))

theorem Alike.of_ok {a : α} {y : EStateM.Result Stop Console α} (h : Alike text (.ok a c) y) :
    ∃ c', y = .ok a c' ∧ c.Behind text c' := by
  cases y with
  | ok a' c' =>
      obtain ⟨rfl, hc⟩ := h
      exact ⟨c', rfl, hc⟩
  | error e c' => exact h.elim

theorem Alike.of_error {e : Stop} {y : EStateM.Result Stop Console α}
    (h : Alike text (.error e c) y) : ∃ c', y = .error e c' ∧ c.Behind text c' := by
  cases y with
  | ok a c' => exact h.elim
  | error e' c' =>
      obtain ⟨rfl, hc⟩ := h
      exact ⟨c', rfl, hc⟩

/-! ### Steps that do not look at the output -/

theorem Oblivious.pure (a : α) : Oblivious (pure a : Session α) := fun _ _ _ h => ⟨rfl, h⟩

theorem Oblivious.throw (e : Stop) : Oblivious (throw e : Session α) := fun _ _ _ h => ⟨rfl, h⟩

/-- **Steps one after another.** -/
theorem Oblivious.bind {x : Session α} {k : α → Session β} (hx : Oblivious x)
    (hk : ∀ a, Oblivious (k a)) : Oblivious (x >>= k) := by
  intro text c c' h
  rw [bind_eq, bind_eq]
  have hlike := hx text c c' h
  cases hc : x c with
  | ok a d =>
      obtain ⟨d', hc', hd⟩ := Alike.of_ok (hc ▸ hlike)
      rw [hc']
      exact hk a text d d' hd
  | error e d =>
      obtain ⟨d', hc', hd⟩ := Alike.of_error (hc ▸ hlike)
      rw [hc']
      exact ⟨rfl, hd⟩

theorem oblivious_print (s : Text.Wide) : Oblivious (print s) := by
  intro text c c' h
  rw [print_of_narrow?, print_of_narrow?]
  cases Text.narrow? s with
  | none => exact ⟨rfl, h⟩
  | some s =>
      refine ⟨rfl, h.files, ?_⟩
      show c'.out ++ s = text ++ (c.out ++ s)
      rw [h.out, String.append_assoc]

theorem oblivious_printError (s : String) : Oblivious (printError s) :=
  fun _ _ _ h => ⟨rfl, h.files, h.out⟩

theorem oblivious_announce (path : String) : Oblivious (announce path) := oblivious_printError _

theorem oblivious_log (es : List Event) : Oblivious (log es) := by
  intro text c c' h
  rw [log_eq, log_eq]
  exact ⟨rfl, h.files, h.out⟩

theorem oblivious_onFiles (task : FileTask α) : Oblivious (onFiles task) := by
  intro text c c' h
  rw [onFiles_eq, onFiles_eq, h.files]
  cases task.run c.files with
  | ok a t => exact ⟨rfl, rfl, h.out⟩
  | error e t => exact ⟨rfl, rfl, h.out⟩

theorem oblivious_settings (L : Settings.Loader) (a : Arguments) : Oblivious (settings L a) := by
  intro text c c' h
  rw [settings_eq, settings_eq, h.files]
  rcases Settings.load L c.files (a.value? .config) with ⟨es, _ | s⟩
  · exact ⟨rfl, h.files, h.out⟩
  · exact ⟨rfl, h.files, h.out⟩

theorem oblivious_facts (a : Arguments) (s : Settings) : Oblivious (facts a s) := by
  intro text c c' h
  rw [facts_eq, facts_eq, h.files]
  cases Annotations.Reader.readFiles { rebind := s.reader.rebindAfterBlock } c.files a.files with
  | ok r => exact ⟨rfl, h.files, h.out⟩
  | error e => exact ⟨rfl, h.files, h.out⟩

theorem oblivious_prepare (L : Settings.Loader) (a : Arguments) : Oblivious (prepare L a) :=
  (oblivious_settings L a).bind fun s => (oblivious_facts a s).bind fun _ => .pure _

theorem oblivious_callGraph (input : CallGraph.Source) : Oblivious (callGraph input) := by
  rw [callGraph]
  split
  · exact (oblivious_log _).bind fun _ => .pure _
  · exact .throw _
  · exact (oblivious_log _).bind fun _ => .throw _

theorem oblivious_componentGraph (f : Facts) (g : CallGraph) (s : GraphSettings) :
    Oblivious (componentGraph f g s) := by
  rw [componentGraph]
  split
  · exact (oblivious_log _).bind fun _ => .pure _
  · exact .throw _

/-- **Drawing does the same behind any output**, in every format. -/
theorem oblivious_diagram (a : Arguments) (s : Settings) (f : Facts) (input : CallGraph.Source) :
    Oblivious (diagram a s f input) := by
  rw [diagram]
  refine (oblivious_callGraph input).bind fun calls => ?_
  refine (oblivious_componentGraph f calls s.graph).bind fun graph => ?_
  dsimp only
  split
  · split
    · exact (oblivious_onFiles _).bind fun _ => oblivious_announce _
    · exact oblivious_print _
  · refine Oblivious.bind ?_ ?_
    · exact oblivious_onFiles _
    · exact oblivious_announce

/-! ### Steps that print nothing on the output -/

theorem Silent.bind {x : Session α} {k : α → Session β} (hx : Silent x) (hk : ∀ a, Silent (k a)) :
    Silent (x >>= k) := by
  intro c
  rw [bind_eq]
  have hsilent := hx c
  cases hc : x c with
  | ok a d =>
      rw [hc] at hsilent
      have h := hsilent.trans (hk a d)
      rwa [String.empty_append] at h
  | error e d =>
      rw [hc] at hsilent
      exact hsilent

theorem silent_prepare (L : Settings.Loader) (a : Arguments) : Silent (prepare L a) := by
  have hsettings : Silent (settings L a) := by
    intro c
    rw [settings_eq]
    rcases Settings.load L c.files (a.value? .config) with ⟨es, _ | s⟩
    · exact .of_eq rfl rfl
    · exact .of_eq rfl rfl
  have hfacts (s : Settings) : Silent (facts a s) := by
    intro c
    rw [facts_eq]
    cases Annotations.Reader.readFiles { rebind := s.reader.rebindAfterBlock } c.files a.files with
    | ok r => exact .of_eq rfl rfl
    | error e => exact .of_eq rfl rfl
  exact hsettings.bind fun s => (hfacts s).bind fun f c => .of_eq rfl rfl

/-- **Preparing comes to the same, whether events are printed or not.** -/
theorem prepare_alike (L : Settings.Loader) (a : Arguments) (t : FileTree) :
    (∃ r, ∀ verbose, ∃ c, prepare L a { files := t, verbose := verbose } = .ok r c ∧
      c.Untouched t) ∨
    ∃ e, ∀ verbose, ∃ c, prepare L a { files := t, verbose := verbose } = .error e c ∧
      c.Untouched t := by
  have hstart : Console.Untouched t { files := t } := ⟨rfl, rfl⟩
  have hquiet := (silent_prepare L a { files := t }).untouched hstart
  have hlike (verbose : Bool) :=
    oblivious_prepare L a "" { files := t } { files := t, verbose := verbose } (.of_eq rfl rfl)
  cases hprepared : prepare L a { files := t } with
  | ok r c =>
      rw [hprepared] at hquiet hlike
      refine .inl ⟨r, fun verbose => ?_⟩
      obtain ⟨c', hc', hbehind⟩ := (hlike verbose).of_ok
      exact ⟨c', hc', hbehind.untouched hquiet⟩
  | error e c =>
      rw [hprepared] at hquiet hlike
      refine .inr ⟨e, fun verbose => ?_⟩
      obtain ⟨c', hc', hbehind⟩ := (hlike verbose).of_error
      exact ⟨c', hc', hbehind.untouched hquiet⟩

end Session

end ThreatModel.CommandLine
