import ThreatModel.Annotations.Language
import ThreatModel.Proofs.Annotations.Fields
import ThreatModel.Proofs.Text.Codes

/-!
# Plain definitions — lines in which a function is found by its name

A definition is searched for with fields that are as short as they can be and blanks that are as
many as there are, so a line may be read in many ways.  The lines that are listed here as `Plain`
are read in the way they were written: the function and its code are those of the line
(`match?_of_plain`), and the last word of the function is its name (`getLast?_words`).

* In Go a receiver may stand in front of the name.  The field of the function ends at the first
  parenthesis behind its first character, which is not that of the receiver.
* In Python the code leaves a final colon out and the blanks around it (`signature`).
* In Ruby the name may stand behind `self.`, which is part of the code only.
-/

namespace ThreatModel

/-! ### Blanks and words -/

namespace Text

/-- The code points of blanks. -/
def blankCodes : List Nat :=
  [9, 10, 11, 12, 13, 28, 29, 30, 31, 32, 0x85, 0xA0, 0x1680, 0x2000, 0x2001, 0x2002, 0x2003,
    0x2004, 0x2005, 0x2006, 0x2007, 0x2008, 0x2009, 0x200A, 0x2028, 0x2029, 0x202F, 0x205F, 0x3000]

theorem mem_blankCodes {c : Char} (h : isBlank c = true) : c.toNat ∈ blankCodes := by
  simp only [isBlank, Bool.or_eq_true, Bool.and_eq_true, decide_eq_true_eq, beq_iff_eq] at h
  simp only [blankCodes, List.mem_cons, List.not_mem_nil, or_false]
  omega

/-- No blank is a letter of a word. -/
theorem isWord_of_isBlank {c : Char} (h : isBlank c = true) : isWord c = false := by
  have hcodes : ∀ n ∈ blankCodes, isWord (Char.ofNat n) = false := by decide +kernel
  have hword := hcodes _ (mem_blankCodes h)
  rwa [Char.ofNat_toNat] at hword

theorem isBlank_of_isWord {c : Char} (h : isWord c = true) : isBlank c = false := by
  refine Bool.eq_false_iff.mpr fun hblank => ?_
  rw [isWord_of_isBlank hblank] at h
  cases h

variable {w s : List Char}

theorem words_of_not_isBlank (hne : w ≠ []) (hw : ∀ c ∈ w, isBlank c = false) : words w = [w] := by
  induction w with
  | nil => exact absurd rfl hne
  | cons c w ih =>
      obtain ⟨hc, hw⟩ := List.forall_mem_cons.mp hw
      rw [words, hc, if_neg Bool.false_ne_true]
      cases w with
      | nil => rfl
      | cons d w =>
          have hd := hw d List.mem_cons_self
          rw [ih (List.cons_ne_nil d w) hw, List.head?_cons, Option.map_some, hd]
          rfl

/-- A blank parts the words in front of it from those behind it. -/
theorem words_append_cons {d : Char} (hd : isBlank d = true) (u s : List Char) :
    words (u ++ d :: s) = words u ++ words s := by
  have hcons : words (d :: s) = words s := by rw [words, if_pos hd]
  induction u with
  | nil => exact hcons
  | cons c u ih =>
      rw [List.cons_append, words, words, ih]
      cases hc : isBlank c with
      | true => rfl
      | false =>
          rw [if_neg Bool.false_ne_true, if_neg Bool.false_ne_true]
          cases u with
          | nil =>
              rw [List.nil_append, List.head?_cons, Option.map_some, hd]
              rfl
          | cons e u =>
              rw [List.cons_append, List.head?_cons, List.head?_cons, Option.map_some]
              cases he : isBlank e with
              | true => rfl
              | false =>
                  have hne : words (e :: u) ≠ [] := fun hnil => by
                    rw [words_eq_nil_iff.mp hnil e List.mem_cons_self] at he
                    cases he
                  obtain ⟨v, vs, hv⟩ := List.exists_cons_of_ne_nil hne
                  rw [hv]
                  rfl

/-- A word at the end is the last one. -/
theorem getLast?_words (hne : w ≠ []) (hw : ∀ c ∈ w, isBlank c = false) {d : Char}
    (hd : isBlank d = true) (u : List Char) : (words (u ++ d :: w)).getLast? = some w := by
  rw [words_append_cons hd, words_of_not_isBlank hne hw, List.getLast?_concat]

theorem prefix_trimRight (s : List Char) : trimRight s <+: s := by
  obtain ⟨b, -, hs⟩ := trimRight_append_blanks s
  exact ⟨b, hs⟩

end Text

namespace Language

open Pattern Annotations

/-- There are only blanks. -/
def AllBlank (s : List Char) : Prop := ∀ c ∈ s, Text.isBlank c = true

instance : DecidablePred AllBlank := fun s => List.decidableBAll _ s

/-! ### Signatures in Python -/

/-- The text without a colon at its end. -/
def withoutColon (s : List Char) : List Char := if s.getLast? = some ':' then s.dropLast else s

/-- The text without blanks at its end, and without a final colon and the blanks around it. -/
def signature (text : List Char) : List Char := Text.trimRight (withoutColon (Text.trimRight text))

/-- Blanks, with one colon among them or none. -/
def IsSignatureEnd (s : List Char) : Prop :=
  AllBlank s ∨ ∃ b b', AllBlank b ∧ AllBlank b' ∧ s = b ++ ':' :: b'

theorem prefix_withoutColon (s : List Char) : withoutColon s <+: s := by
  rw [withoutColon]
  split
  · exact List.dropLast_prefix s
  · exact List.prefix_rfl

theorem prefix_trimRight_of_signature (text : List Char) :
    signature text <+: Text.trimRight text :=
  (Text.prefix_trimRight _).trans (prefix_withoutColon _)

/-- A signature is followed by its end. -/
theorem exists_signatureEnd (text : List Char) :
    ∃ e, IsSignatureEnd e ∧ signature text ++ e = text := by
  obtain ⟨b, hb, htext⟩ := Text.trimRight_append_blanks text
  obtain ⟨b', hb', hcode⟩ := Text.trimRight_append_blanks (withoutColon (Text.trimRight text))
  by_cases hcolon : (Text.trimRight text).getLast? = some ':'
  · have hlast : withoutColon (Text.trimRight text) ++ [':'] = Text.trimRight text := by
      rw [withoutColon, if_pos hcolon]
      exact List.dropLast_append_getLast? _ hcolon
    refine ⟨b' ++ ':' :: b, .inr ⟨b', b, hb', hb, rfl⟩, ?_⟩
    rw [← List.append_assoc, signature, hcode, List.append_cons, hlast, htext]
  · have hself : withoutColon (Text.trimRight text) = Text.trimRight text := if_neg hcolon
    refine ⟨b' ++ b, .inl (List.forall_mem_append.mpr ⟨hb', hb⟩), ?_⟩
    rw [← List.append_assoc, signature, hcode, hself, htext]

/-- What stands in front of any such end has all of the signature. -/
theorem prefix_of_signatureEnd {e : List Char} (he : IsSignatureEnd e) (v : List Char) :
    signature (v ++ e) <+: v := by
  rcases he with hblank | ⟨b, b', hb, hb', rfl⟩
  · have htrim : Text.trimRight (v ++ e) = Text.trimRight v := Text.trimRight_append hblank
    exact (prefix_trimRight_of_signature _).trans (htrim ▸ Text.prefix_trimRight v)
  · have htrim : Text.trimRight (v ++ (b ++ ':' :: b')) = v ++ b ++ [':'] := by
      rw [← List.append_assoc, List.append_cons, Text.trimRight_append hb',
        Text.trimRight_concat, if_neg (by decide)]
    have hcolon : withoutColon (v ++ b ++ [':']) = v ++ b := by
      rw [withoutColon, List.getLast?_concat, if_pos rfl, List.dropLast_concat]
    rw [signature, htrim, hcolon, Text.trimRight_append hb]
    exact Text.prefix_trimRight v

/-! ### The lines -/

/-- A name in Go ends at a blank or at a parenthesis. -/
def IsGoName (s : List Char) : Prop := ∀ c ∈ s, Text.isBlank c = false ∧ c ≠ '('

instance : DecidablePred IsGoName := fun s => List.decidableBAll _ s

/-- What opens a definition. -/
inductive Keyword : Language → List Char → Prop where
  | go : Keyword .go "func".toList
  | python : Keyword .python "def".toList
  | async {b : List Char} (hb : AllBlank b) (hne : b ≠ []) :
      Keyword .python ("async".toList ++ (b ++ "def".toList))
  | ruby : Keyword .ruby "def".toList

/-- A receiver in parentheses, with blanks behind it, if there is one. -/
inductive IsReceiver : List Char → Prop where
  | absent : IsReceiver []
  | written {text b : List Char} (hopen : '(' ∉ text) (hclose : ')' ∉ text) (hb : AllBlank b)
      (hne : b ≠ []) : IsReceiver ('(' :: (text ++ ')' :: b))

/-- Arguments in parentheses, if there are any. -/
inductive IsArguments : List Char → Prop where
  | absent : IsArguments []
  | written (text : List Char) : IsArguments ('(' :: (text ++ [')']))

/-- What follows the keyword in a plain definition of a function of this name: the text, what is
found as the function, and the code. -/
inductive Shape (name : List Char) : Language → List Char → List Char → List Char → Prop where
  | go {receiver rest b tail : List Char} (hreceiver : IsReceiver receiver)
      (hname : IsGoName name) (hrest : '\x7b' ∉ rest) (hb : AllBlank b) :
      Shape name .go (receiver ++ (name ++ '(' :: (rest ++ (b ++ '\x7b' :: tail))))
        (receiver ++ name) (receiver ++ (name ++ '(' :: Text.trimRight rest))
  | python {b text : List Char} (hname : ∀ c ∈ name, Text.isWord c = true) (hb : AllBlank b) :
      Shape name .python (name ++ (b ++ '(' :: text)) name (name ++ (b ++ '(' :: signature text))
  | ruby {self arguments b : List Char} (hself : self = [] ∨ self = "self.".toList)
      (hname : ∀ c ∈ name, isMethodChar c = true)
      (harguments : IsArguments arguments) (hb : AllBlank b) :
      Shape name .ruby (self ++ (name ++ (arguments ++ b))) name (self ++ (name ++ arguments))

/-- A line that plainly defines a function of this name. -/
inductive Plain (name : List Char) (l : Language) (line function code : List Char) : Prop where
  | mk {b keyword b' text : List Char} (hb : AllBlank b) (hkeyword : Keyword l keyword)
      (hb' : AllBlank b') (hne : b' ≠ []) (htext : Shape name l text function code)
      (hline : line = b ++ (keyword ++ (b' ++ text)))

/-! ### What is kept of them -/

/-- What a definition has behind its keyword. -/
def behindKeyword : Language → Pattern DefinitionPart
  | go     => .chain [.capture .code (.chain [.field .function, "(", anything]), blanks, "\x7b"]
  | python => .chain [.capture .code
      (.chain [.capture .function (.several true Text.isWord), blanks, "(", anything]),
      blanks, .optional ":", blanks, .finish]
  | ruby   => .chain [.capture .code (.chain [.optional "self.",
      .capture .function (.several true isMethodChar), .optional (.chain ["(", anything, ")"])]),
      blanks, .finish]

/-- The match shows this function and this code. -/
structure Shows (m : Match DefinitionPart) (function code : List Char) : Prop where
  function : m.get .function = String.ofList function
  code : m.get .code = String.ofList code

section
variable {l : Language} {name s b b' function code rest u v w : List Char}
  {kept : Kept DefinitionPart}

theorem shows_of_eq_append (hs : s = code ++ w) (hu : u = function ++ v) :
    Shows [(.code, ⟨s, w⟩), (.function, ⟨u, v⟩)] function code := by
  subst hs hu
  refine ⟨?_, ?_⟩
  · rw [Match.get, Match.get?_cons_of_ne _ _ (by decide), Match.get?_cons_self, Option.getD_some]
  · rw [Match.get, Match.get?_cons_self, Option.getD_some]

theorem not_isBlank_head? {c : Char} (hc : Text.isBlank c = false) :
    ∀ d ∈ (c :: s).head?, Text.isBlank d = false := by
  rintro d ⟨⟩
  exact hc

/-- The keyword and the blanks around it are read as they were written. -/
theorem run_definition {m : Match DefinitionPart} {keyword : List Char} (hb : AllBlank b)
    (hkeyword : Keyword l keyword) (hb' : AllBlank b') (hne : b' ≠ [])
    (hs : ∀ c ∈ s.head?, Text.isBlank c = false)
    (h : (behindKeyword l).run keep s [] = some m) :
    l.definition.run keep (b ++ (keyword ++ (b' ++ s))) [] = some m := by
  have hblanks := run_several (k := (behindKeyword l).run keep) hne hb' hs h
  cases hkeyword with
  | go =>
      refine run_many hb (not_isBlank_head? (by decide)) ?_
      exact (run_lit "func" _ _ _).trans hblanks
  | python =>
      refine run_many hb (not_isBlank_head? (by decide)) ?_
      have hhead : ("def".toList ++ (b' ++ s)).head? ≠ some 'a' := by
        change some 'd' ≠ some 'a'
        decide
      refine (run_optional_of_none ?_).trans ((run_lit "def" _ _ _).trans hblanks)
      exact run_lit_of_head?_ne (t := "async") rfl hhead
  | async ha hane =>
      rw [List.append_assoc, List.append_assoc]
      refine run_many hb (not_isBlank_head? (by decide)) ?_
      refine run_optional_of_some ((run_lit "async" _ _ _).trans ?_)
      refine run_several hane ha (not_isBlank_head? (by decide)) ?_
      exact (run_lit "def" _ _ _).trans hblanks
  | ruby =>
      refine run_many hb (not_isBlank_head? (by decide)) ?_
      exact (run_lit "def" _ _ _).trans hblanks

/-! ### Go -/

theorem run_brace {tail : List Char} (hb : AllBlank b) :
    (chain [blanks, "\x7b"]).run keep (b ++ '\x7b' :: tail) kept = some kept :=
  run_many hb (not_isBlank_head? (by decide)) (run_lit "\x7b" _ _ _)

/-- No brace can be reached over anything but blanks. -/
theorem run_brace_eq_none {tail : List Char} (hv : '\x7b' ∉ v)
    (hblank : ∃ d ∈ v, Text.isBlank d = false) (hb : AllBlank b) :
    (chain [blanks, "\x7b"]).run keep (v ++ (b ++ '\x7b' :: tail)) kept = none := by
  refine run_eq_none fun r hr _ => ?_
  obtain ⟨_, ⟨b', hb', hread⟩, hbrace⟩ := hr
  obtain rfl : _ = '\x7b' :: r := hbrace
  have hnot : ∀ s, AllBlank s → '\x7b' ∉ s := fun s hs hm => absurd (hs _ hm) (by decide)
  rw [← List.append_assoc] at hread
  obtain ⟨rfl, -⟩ :=
    append_cons_inj (List.not_mem_append hv (hnot _ hb)) (hnot _ hb') hread
  obtain ⟨d, hd, hblank⟩ := hblank
  rw [hb' d (List.mem_append_left _ hd)] at hblank
  cases hblank

/-- **In Go** the function ends at the first parenthesis behind its first character, and the code
in front of the first brace there and the blanks that lead to it. -/
theorem run_go {c : Char} {f tail : List Char} (hopen : '(' ∉ f) (hu : '\x7b' ∉ u)
    (hlast : ∀ a v, u = a ++ v → v ≠ [] → ∃ d ∈ v, Text.isBlank d = false) (hb : AllBlank b)
    (hn : '\n' ∉ c :: f ++ '(' :: (u ++ (b ++ '\x7b' :: tail))) :
    ∃ m, (behindKeyword .go).run keep (c :: f ++ '(' :: (u ++ (b ++ '\x7b' :: tail))) [] = some m ∧
      Shows m (c :: f) (c :: f ++ '(' :: u) := by
  have hcode : c :: f ++ '(' :: (u ++ (b ++ '\x7b' :: tail)) =
      c :: f ++ '(' :: u ++ (b ++ '\x7b' :: tail) := by simp
  have hnf : '\n' ∉ c :: f := fun hm => hn (List.mem_append_left _ hm)
  have hnu : ∀ d ∈ u, notNewline d = true := notNewline_of_not_mem fun hm =>
    hn (List.mem_append_right _ (List.mem_cons_of_mem _ (List.mem_append_left _ hm)))
  refine ⟨_, ?_, shows_of_eq_append (v := '(' :: (u ++ (b ++ '\x7b' :: tail))) hcode rfl⟩
  refine run_field (List.cons_ne_nil c f) hnf (fun a v hav ha hv kept => ?_) ?_
  · -- the parenthesis of a receiver is the first character of the field
    obtain ⟨c', a, rfl⟩ := List.exists_cons_of_ne_nil ha
    obtain ⟨d, v, rfl⟩ := List.exists_cons_of_ne_nil hv
    have hd : d ≠ '(' := fun h => hopen ((List.cons.inj hav).2 ▸ by simp [h])
    exact run_lit_of_head?_ne rfl fun h => hd (Option.some.inj h)
  · refine (run_lit "(" _ _ _).trans (run_many_lazy hnu (fun a v hav hv => ?_) (run_brace hb))
    have hbrace : '\x7b' ∉ v := fun hm => hu (hav ▸ List.mem_append_right a hm)
    exact run_brace_eq_none hbrace (hlast a v hav hv) hb

/-! ### Python -/

theorem run_signatureEnd {e : List Char} (he : IsSignatureEnd e) :
    (chain [blanks, .optional ":", blanks, .finish]).run keep e kept = some kept := by
  have hend : ∀ b, AllBlank b → (chain [blanks, .finish]).run keep b kept = some kept :=
    fun _ => run_ending
  rcases he with hb | ⟨b, b', hb, hb', rfl⟩
  · rw [← List.append_nil e]
    refine run_many hb nofun ((run_optional_of_none ?_).trans (hend [] (List.forall_mem_nil _)))
    exact run_lit_of_head?_ne (t := ":") rfl nofun
  · refine run_many hb (not_isBlank_head? (by decide)) ?_
    exact run_optional_of_some ((run_lit ":" _ _ _).trans (hend b' hb'))

theorem isSignatureEnd_of_reads {e r : List Char} (hn : '\n' ∉ e)
    (h : (chain [blanks, .optional ":", blanks, .finish]).Reads e r) : IsSignatureEnd e := by
  obtain ⟨_, ⟨b, hb, rfl⟩, m, hcolon, hend⟩ := h
  rcases hcolon with hcolon | rfl
  · obtain rfl : _ = ':' :: m := hcolon
    refine .inr ⟨b, m, hb, reads_ending (fun hm => hn ?_) hend, rfl⟩
    exact List.mem_append_right b (List.mem_cons_of_mem _ hm)
  · have hm := reads_ending (fun hm => hn (List.mem_append_right b hm)) hend
    exact .inl (List.forall_mem_append.mpr ⟨hb, hm⟩)

theorem run_signatureEnd_eq_none {e : List Char} (hn : '\n' ∉ e) (he : ¬ IsSignatureEnd e) :
    (chain [blanks, .optional ":", blanks, .finish]).run keep e kept = none :=
  run_eq_none fun _ hr _ => absurd (isSignatureEnd_of_reads hn hr) he

/-- Behind a name there is a blank or a parenthesis. -/
theorem not_isWord_head? (hb : AllBlank b) :
    ∀ c ∈ (b ++ '(' :: s).head?, Text.isWord c = false := by
  intro c hc
  cases b with
  | nil =>
      obtain rfl : '(' = c := Option.some.inj hc
      decide
  | cons d b =>
      obtain rfl : d = c := Option.some.inj hc
      exact Text.isWord_of_isBlank (hb d List.mem_cons_self)

/-- **In Python** the code ends where the end of a signature can be read first. -/
theorem run_python {e : List Char} (hne : name ≠ []) (hname : ∀ c ∈ name, Text.isWord c = true)
    (hb : AllBlank b) (he : IsSignatureEnd e)
    (hearly : ∀ a v, u = a ++ v → v ≠ [] → ¬ IsSignatureEnd (v ++ e)) (hn : '\n' ∉ u ++ e) :
    ∃ m, (behindKeyword .python).run keep (name ++ (b ++ '(' :: (u ++ e))) [] = some m ∧
      Shows m name (name ++ (b ++ '(' :: u)) := by
  have hcode : name ++ (b ++ '(' :: (u ++ e)) = name ++ (b ++ '(' :: u) ++ e := by simp
  refine ⟨_, ?_, shows_of_eq_append (v := b ++ '(' :: (u ++ e)) hcode rfl⟩
  refine run_capture_several hne hname (not_isWord_head? hb) ?_
  refine run_many hb (not_isBlank_head? (by decide)) ((run_lit "(" _ _ _).trans ?_)
  have hnu : ∀ d ∈ u, notNewline d = true :=
    notNewline_of_not_mem fun hm => hn (List.mem_append_left e hm)
  refine run_many_lazy hnu (fun a v hav hv => ?_) (run_signatureEnd he)
  refine run_signatureEnd_eq_none (fun hm => hn ?_) (hearly a v hav hv)
  rw [hav, List.append_assoc]
  exact List.mem_append_right a hm

/-! ### Ruby -/

theorem isBlank_of_isMethodChar {c : Char} (h : isMethodChar c = true) :
    Text.isBlank c = false := by
  simp only [isMethodChar, Bool.or_eq_true, beq_iff_eq] at h
  rcases h with ((hword | rfl) | rfl) | rfl
  · exact Text.isBlank_of_isWord hword
  all_goals decide

/-- Behind a name there are arguments, a blank or the end. -/
theorem not_isMethodChar_head? {a : List Char} (ha : IsArguments a) (hb : AllBlank b) :
    ∀ c ∈ (a ++ b).head?, isMethodChar c = false ∧ c ∉ "self.".toList := by
  cases ha with
  | absent =>
      intro c hc
      have hblank := hb c (List.mem_of_mem_head? hc)
      refine ⟨Bool.eq_false_iff.mpr fun hmethod => ?_, fun hself => ?_⟩
      · rw [isBlank_of_isMethodChar hmethod] at hblank
        cases hblank
      · have hself : c = 's' ∨ c = 'e' ∨ c = 'l' ∨ c = 'f' ∨ c = '.' := by simpa using hself
        rcases hself with rfl | rfl | rfl | rfl | rfl
        all_goals exact absurd hblank (by decide)
  | written text =>
      rintro c ⟨⟩
      decide

/-- A name alone is not read as one behind `self.`, even if it is `self`. -/
theorem run_self_eq_none {α : Type} {k : List Char → Kept DefinitionPart → Option α}
    (hname : ∀ c ∈ name, isMethodChar c = true) (hs : ∀ c ∈ s.head?, c ∉ "self.".toList) :
    (Pattern.lit "self.").run k (name ++ s) kept = none := by
  refine run_eq_none fun r hr _ => ?_
  have hdot : '.' ∉ name := fun hm => absurd (hname _ hm) (by decide)
  rcases List.append_eq_append_iff.mp (show name ++ s = "self.".toList ++ r from hr) with
    ⟨w, hself, rfl⟩ | ⟨w, rfl, -⟩
  · cases w with
    | nil =>
        rw [List.append_nil] at hself
        exact absurd (hself ▸ by decide) hdot
    | cons c w =>
        refine absurd ?_ (hs c rfl)
        rw [hself]
        exact List.mem_append_right name List.mem_cons_self
  · exact absurd (List.mem_append_left w (by decide)) hdot

/-- Arguments end at the last parenthesis of the line. -/
theorem run_arguments {a : List Char} (ha : IsArguments a) (hb : AllBlank b) (hn : '\n' ∉ a ++ b) :
    (optional (chain ["(", anything, ")"])).run
      (fun r kept => (chain [blanks, .finish]).run keep r ((.code, ⟨s, r⟩) :: kept))
      (a ++ b) kept = some ((.code, ⟨s, b⟩) :: kept) := by
  cases ha with
  | absent =>
      have hhead : b.head? ≠ some '(' := fun h =>
        absurd (hb '(' (List.mem_of_mem_head? h)) (by decide)
      refine (run_optional_of_none ?_).trans (run_ending hb)
      exact run_lit_of_head?_ne (t := "(") rfl hhead
  | written text =>
      rw [List.cons_append, List.append_assoc, List.singleton_append] at hn ⊢
      have hntext : '\n' ∉ text ++ ')' :: b := fun hm => hn (List.mem_cons_of_mem _ hm)
      refine run_optional_of_some ((run_lit "(" _ _ _).trans ?_)
      refine run_many_lazy (notNewline_of_not_mem fun hm => hntext (List.mem_append_left _ hm))
        (fun u v huv hv => run_eq_none fun r hr _ => ?_) ((run_lit ")" _ _ _).trans (run_ending hb))
      -- an earlier parenthesis leaves the last one, which is no blank
      obtain ⟨d, v, rfl⟩ := List.exists_cons_of_ne_nil hv
      have hr : d :: (v ++ ')' :: b) = ')' :: r := hr
      obtain ⟨-, rfl⟩ := List.cons.inj hr
      refine run_ending_eq_none (fun hm => hntext ?_) ⟨')', by simp, by decide⟩
      rw [huv, List.append_assoc, List.cons_append]
      exact List.mem_append_right u (List.mem_cons_of_mem d hm)

/-- **In Ruby** the code goes up to the end of the line, and the name is read behind `self.`. -/
theorem run_ruby {self a : List Char} (hne : name ≠ [])
    (hself : self = [] ∨ self = "self.".toList) (hname : ∀ c ∈ name, isMethodChar c = true)
    (ha : IsArguments a) (hb : AllBlank b) (hn : '\n' ∉ a ++ b) :
    ∃ m, (behindKeyword .ruby).run keep (self ++ (name ++ (a ++ b))) [] = some m ∧
      Shows m name (self ++ (name ++ a)) := by
  have hcode : self ++ (name ++ (a ++ b)) = self ++ (name ++ a) ++ b := by simp
  have hhead := not_isMethodChar_head? ha hb
  let k : List Char → Kept DefinitionPart → Option (Match DefinitionPart) :=
    (optional (chain ["(", anything, ")"])).run fun r kept => (chain [blanks, .finish]).run keep r
      ((.code, ⟨self ++ (name ++ (a ++ b)), r⟩) :: kept)
  have harguments : ∀ kept, k (a ++ b) kept =
      some ((.code, ⟨self ++ (name ++ (a ++ b)), b⟩) :: kept) := fun _ => run_arguments ha hb hn
  have hfunction := run_capture_several (f := DefinitionPart.function) hne hname
    (fun c hc => (hhead c hc).1) (harguments [_])
  refine ⟨_, ?_, shows_of_eq_append (v := a ++ b) hcode rfl⟩
  rcases hself with rfl | rfl
  · exact (run_optional_of_none (run_self_eq_none hname fun c hc => (hhead c hc).2)).trans hfunction
  · exact run_optional_of_some ((run_lit "self." _ _ _).trans hfunction)

/-! ### What is found in plain definitions -/

/-- The parenthesis of a receiver stands in front of all that is found as the function. -/
theorem IsReceiver.exists_cons {receiver : List Char} (h : IsReceiver receiver) (hne : name ≠ [])
    (hname : '(' ∉ name) : ∃ c f, receiver ++ name = c :: f ∧ '(' ∉ f := by
  cases h with
  | absent =>
      obtain ⟨c, f, rfl⟩ := List.exists_cons_of_ne_nil hne
      exact ⟨c, f, rfl, List.not_mem_of_not_mem_cons hname⟩
  | written hopen hclose hb hne =>
      refine ⟨'(', _, rfl, ?_⟩
      have hblank : ∀ s, AllBlank s → '(' ∉ s := fun s hs hm => absurd (hs _ hm) (by decide)
      simp [hopen, hblank _ hb, hname]

/-- The name is the last word of what is found. -/
theorem IsReceiver.getLast?_words {receiver : List Char} (h : IsReceiver receiver) (hne : name ≠ [])
    (hname : ∀ c ∈ name, Text.isBlank c = false) :
    (Text.words (receiver ++ name)).getLast? = some name := by
  cases h with
  | absent => rw [List.nil_append, Text.words_of_not_isBlank hne hname, List.getLast?_singleton]
  | @written text b hopen hclose hb hbne =>
      have hlast : '(' :: (text ++ ')' :: b) ++ name =
          '(' :: (text ++ ')' :: b.dropLast) ++ b.getLast hbne :: name := by
        rw [List.cons_append, List.cons_append, List.append_assoc, List.append_assoc,
          List.cons_append, List.cons_append, List.append_cons b.dropLast,
          List.dropLast_append_getLast]
      rw [hlast]
      exact Text.getLast?_words hne hname (hb _ (List.getLast_mem hbne)) _

/-- A final part of a signature and its end are no such end. -/
theorem not_isSignatureEnd {text e : List Char} (htext : signature text ++ e = text)
    (huv : signature text = u ++ v) (hv : v ≠ []) : ¬ IsSignatureEnd (v ++ e) := by
  intro hend
  have hstart := prefix_of_signatureEnd hend u
  rw [← List.append_assoc, ← huv, htext] at hstart
  have hlen := hstart.length_le
  rw [huv, List.length_append] at hlen
  exact hv (List.length_eq_zero_iff.mp (by omega))

/-- What is found starts with no blank and ends in the name. -/
theorem Shape.head? (h : Shape name l s function code) (hne : name ≠ []) :
    ∀ c ∈ s.head?, Text.isBlank c = false := by
  obtain ⟨d, name, rfl⟩ := List.exists_cons_of_ne_nil hne
  cases h with
  | go hreceiver hname =>
      cases hreceiver with
      | absent => exact not_isBlank_head? (hname d List.mem_cons_self).1
      | written => exact not_isBlank_head? (by decide)
  | python hname => exact not_isBlank_head? (Text.isBlank_of_isWord (hname d List.mem_cons_self))
  | ruby hself hname =>
      rcases hself with rfl | rfl
      · exact not_isBlank_head? (isBlank_of_isMethodChar (hname d List.mem_cons_self))
      · exact not_isBlank_head? (by decide)

/-- **What follows the keyword is read as it was written.** -/
theorem Shape.run (h : Shape name l s function code) (hne : name ≠ []) (hn : '\n' ∉ s) :
    ∃ m, (behindKeyword l).run keep s [] = some m ∧ Shows m function code := by
  cases h with
  | @go receiver rest b tail hreceiver hname hrest hb =>
      obtain ⟨e, he, hcode⟩ := Text.trimRight_append_blanks rest
      have heb : AllBlank (e ++ b) := List.forall_mem_append.mpr ⟨he, hb⟩
      obtain ⟨c, f, hcf, hopen⟩ := hreceiver.exists_cons hne fun hm => (hname _ hm).2 rfl
      have hfunction : ∀ s, receiver ++ (name ++ '(' :: s) = c :: f ++ '(' :: s := fun s => by
        rw [← List.append_assoc, hcf]
      have hs : receiver ++ (name ++ '(' :: (rest ++ (b ++ '\x7b' :: tail))) =
          c :: f ++ '(' :: (Text.trimRight rest ++ (e ++ b ++ '\x7b' :: tail)) :=
        calc receiver ++ (name ++ '(' :: (rest ++ (b ++ '\x7b' :: tail))) =
            c :: f ++ '(' :: (Text.trimRight rest ++ e ++ (b ++ '\x7b' :: tail)) := by
              rw [hfunction, hcode]
          _ = _ := by simp only [List.append_assoc]
      have hrest : '\x7b' ∉ Text.trimRight rest := fun hm =>
        hrest (hcode ▸ List.mem_append_left e hm)
      rw [hs] at hn ⊢
      rw [hfunction, hcf]
      exact run_go hopen hrest (fun _ _ => Text.exists_not_isBlank_of_trimRight) heb hn
  | @python b text hname hb =>
      obtain ⟨e, he, htext⟩ := exists_signatureEnd text
      have hrun := run_python hne hname hb he (fun _ _ => not_isSignatureEnd htext)
        fun hm => hn (by simp_all)
      rwa [htext] at hrun
  | ruby hself hname harguments hb =>
      exact run_ruby hne hself hname harguments hb fun hm => hn (by simp_all)

/-- **A plain definition is found as it was written.** -/
theorem Plain.match? {line : String} (h : Plain name l line.toList function code) (hne : name ≠ [])
    (hn : '\n' ∉ line.toList) :
    ∃ m, l.definition.match? line = some m ∧ Shows m function code := by
  obtain ⟨hb, hkeyword, hb', hbne, hshape, hline⟩ := h
  rw [hline] at hn
  obtain ⟨m, hm, hshows⟩ := hshape.run hne fun hm => hn (by simp [hm])
  refine ⟨m, ?_, hshows⟩
  rw [Pattern.match?, hline]
  exact run_definition hb hkeyword hb' hbne (hshape.head? hne) hm

/-- **Its function ends in the name.** -/
theorem Plain.getLast?_words {line : List Char} (h : Plain name l line function code)
    (hne : name ≠ []) : (Text.words function).getLast? = some name := by
  obtain ⟨-, -, -, -, hshape, -⟩ := h
  have hself : ∀ h : ∀ c ∈ name, Text.isBlank c = false,
      (Text.words name).getLast? = some name := IsReceiver.absent.getLast?_words hne
  cases hshape with
  | go hreceiver hname => exact hreceiver.getLast?_words hne fun c hc => (hname c hc).1
  | python hname => exact hself fun c hc => Text.isBlank_of_isWord (hname c hc)
  | ruby hself' hname => exact hself fun c hc => isBlank_of_isMethodChar (hname c hc)

end

end Language

end ThreatModel
