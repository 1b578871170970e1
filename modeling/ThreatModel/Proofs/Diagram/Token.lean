import Mathlib.Data.List.Infix
import ThreatModel.Diagram.Token

/-!
# Tokens — what a written identifier stands for

The language is read token by token.  A bare word goes as far as it can, a string in quotes up to
the first quote that no backslash escapes, and an HTML-like text up to its closing bracket (`read`).
In a string, a backslash escapes the quote behind it, and two of them stand for themselves; so a
quote is part of the string iff the backslashes in front of it are odd in number.

`token` puts a backslash in front of a quote only if their number is even, and closes the string
with a quote of its own without a look at what stands before it.

* `isComplete_token_iff`: a written identifier is one whole token that is no HTML-like text iff it
  is not enclosed in `<` and `>` and does not end in an odd number of backslashes.
* `standsFor_token_iff`: it stands for the text itself iff, moreover, every quote in the text has
  an even number of backslashes in front of it.
-/

namespace ThreatModel.Dot

/-! ### Reading -/

/-- What a token stands for. -/
inductive Lexeme where
  /-- A name, a number or a string. -/
  | id (text : List Char)
  | keyword (text : List Char)
  /-- An HTML-like text, without its brackets. -/
  | html (text : List Char)
deriving DecidableEq, Repr

/-- Puts `u` in front of what was read. -/
def before (u : List Char) (read : Option (List Char × List Char)) :
    Option (List Char × List Char) := read.map fun (t, rest) => (u ++ t, rest)

/-- Reads a string behind its opening quote, and gives what is left behind the closing one.  A
backslash at the end of a line joins it to the next. -/
def readString : List Char → Option (List Char × List Char)
  | []               => none
  | '"' :: s         => some ([], s)
  | '\\' :: '"' :: s  => before ['"'] (readString s)
  | '\\' :: '\\' :: s => before ['\\', '\\'] (readString s)
  | '\\' :: '\n' :: s => readString s
  | c :: s           => before [c] (readString s)

/-- Reads an HTML-like text behind its opening bracket; `depth` brackets are open in it. -/
def readHtml : Nat → List Char → Option (List Char × List Char)
  | _, []             => none
  | depth, '<' :: s   => before ['<'] (readHtml (depth + 1) s)
  | 0, '>' :: s       => some ([], s)
  | depth + 1, '>' :: s => before ['>'] (readHtml depth s)
  | depth, c :: s     => before [c] (readHtml depth s)

/-- A letter of a word, which may be any character beyond ASCII. -/
def isLetter (c : Char) : Bool := isNameStart c || 128 ≤ c.toNat

/-- A bare word: a numeral, or letters and digits of which the first is a letter. -/
def isWord : List Char → Bool
  | []     => false
  | c :: s => isNumeral (c :: s) || isLetter c && s.all fun d => isLetter d || d.isDigit

/-- The longest beginning of a text that is `p` together with what was `seen` before it. -/
def longest (p : List Char → Bool) (seen : List Char) : List Char → Option (List Char × List Char)
  | []     => if p seen then some (seen, []) else none
  | c :: s => (longest p (seen ++ [c]) s).or (if p seen then some (seen, c :: s) else none)

/-- Reads the token at the start of a text, and gives what is left behind it. -/
def read : List Char → Option (Lexeme × List Char)
  | '"' :: s => (readString s).map fun (t, rest) => (.id t, rest)
  | '<' :: s => (readHtml 0 s).map fun (t, rest) => (.html t, rest)
  | s        => (longest isWord [] s).map fun (w, rest) =>
    (if isKeyword w then .keyword w else .id w, rest)

/-- A character that can be part of a word. -/
def isWordPart (c : Char) : Bool := isLetter c || c.isDigit || c == '.' || c == '-'

/-- No word goes on here. -/
def EndsWord (rest : List Char) : Prop := ∀ c ∈ rest.head?, isWordPart c = false

/-- The written token is read as the identifier `text`, wherever it stands. -/
def StandsFor (token text : String) : Prop :=
  ∀ rest, EndsWord rest → read (token.toList ++ rest) = some (.id text.toList, rest)

/-- The written token is read as one identifier, wherever it stands. -/
def IsComplete (token : String) : Prop := ∃ text, StandsFor token text

/-- The text is enclosed in `<` and `>`. -/
def IsEnclosed (s : List Char) : Prop := ∃ inner, s = '<' :: inner ++ ['>']

/-- The number of backslashes at the end of a text in front of which `run` backslashes stand. -/
def trailingAfter (run : Nat) : List Char → Nat
  | []        => run
  | '\\' :: s => trailingAfter (run + 1) s
  | _ :: s    => trailingAfter 0 s

@[simp] theorem trailingAfter_nil (run : Nat) : trailingAfter run [] = run := rfl

@[simp] theorem trailingAfter_backslash (run : Nat) (s : List Char) :
    trailingAfter run ('\\' :: s) = trailingAfter (run + 1) s := rfl

theorem trailingAfter_cons {c : Char} (hc : c ≠ '\\') (run : Nat) (s : List Char) :
    trailingAfter run (c :: s) = trailingAfter 0 s := by
  rw [trailingAfter]
  exact hc

/-- The number of backslashes at the end of a text. -/
def trailing (s : List Char) : Nat := trailingAfter 0 s

/-! ### Strings -/

section
variable {u v s rest : List Char} {run : Nat} {c : Char}

theorem before_before (u v : List Char) (read : Option (List Char × List Char)) :
    before u (before v read) = before (u ++ v) read := by
  cases read <;> simp [before]

theorem before_nil (read : Option (List Char × List Char)) : before [] read = read := by
  cases read <;> rfl

theorem before_some (u t rest : List Char) : before u (some (t, rest)) = some (u ++ t, rest) := rfl

/-- Backslashes in pairs stand for themselves. -/
theorem readString_pairs (n : Nat) (s : List Char) :
    readString (List.replicate (2 * n) '\\' ++ s) =
      before (List.replicate (2 * n) '\\') (readString s) := by
  induction n with
  | zero => exact (before_nil _).symm
  | succ n ih =>
      rw [show 2 * (n + 1) = 2 * n + 1 + 1 from rfl, List.replicate_succ, List.replicate_succ,
        List.cons_append, List.cons_append, readString, ih, before_before]
      rfl

/-- A quote closes the string behind an even number of backslashes. -/
theorem readString_even (h : run % 2 = 0) (s : List Char) :
    readString (List.replicate run '\\' ++ '"' :: s) = some (List.replicate run '\\', s) := by
  obtain ⟨n, rfl⟩ : 2 ∣ run := Nat.dvd_of_mod_eq_zero h
  rw [readString_pairs, readString, before_some, List.append_nil]

/-- It is part of the string behind an odd one, of which the last backslash is lost. -/
theorem readString_odd (h : run % 2 = 0) (s : List Char) :
    readString (List.replicate (run + 1) '\\' ++ '"' :: s) =
      before (List.replicate run '\\' ++ ['"']) (readString s) := by
  obtain ⟨n, rfl⟩ : 2 ∣ run := Nat.dvd_of_mod_eq_zero h
  rw [List.replicate_succ', List.append_assoc, readString_pairs, List.singleton_append, readString,
    before_before]

/-- Backslashes in front of any other character stand for themselves. -/
theorem readString_other (hq : c ≠ '"') (hb : c ≠ '\\') (hn : c ≠ '\n') (run : Nat)
    (s : List Char) : readString (List.replicate run '\\' ++ c :: s) =
      before (List.replicate run '\\' ++ [c]) (readString s) := by
  have hone : readString (c :: s) = before [c] (readString s) := by
    rw [readString] <;> simp [hq, hb]
  have hescaped : readString ('\\' :: c :: s) = before ['\\', c] (readString s) := by
    rw [readString, hone, before_before] <;> simp [hq, hb, hn]
  obtain ⟨n, hrun⟩ : ∃ n, run = 2 * n ∨ run = 2 * n + 1 := ⟨run / 2, by omega⟩
  rcases hrun with rfl | rfl
  · rw [readString_pairs, hone, before_before]
  · rw [List.replicate_succ', List.append_assoc, readString_pairs, List.singleton_append, hescaped,
      before_before, List.append_assoc]
    rfl

/-- What a text in quotes stands for, but for the backslashes at its end: of an odd number of
backslashes in front of a quote the last one is lost. -/
def quotedAfter (run : Nat) : List Char → List Char
  | []        => []
  | '\\' :: s => quotedAfter (run + 1) s
  | '"' :: s  => List.replicate (run - run % 2) '\\' ++ '"' :: quotedAfter 0 s
  | c :: s    => List.replicate run '\\' ++ c :: quotedAfter 0 s

/-- A text in quotes is read up to the backslashes at its end. -/
theorem readString_escapeQuotesAfter (hn : '\n' ∉ s) (rest : List Char) :
    readString (escapeQuotesAfter run s ++ '"' :: rest) =
      before (quotedAfter run s)
        (readString (List.replicate (trailingAfter run s) '\\' ++ '"' :: rest)) := by
  fun_induction escapeQuotesAfter run s with
  | case1 run => exact (before_nil _).symm
  | case2 run s ih =>
      exact ih (List.not_mem_of_not_mem_cons hn)
  | case3 run s ih =>
      have heven : (run - run % 2) % 2 = 0 := by omega
      rw [quotedAfter, trailingAfter_cons (by decide), List.append_assoc, List.cons_append,
        readString_odd heven, ih (List.not_mem_of_not_mem_cons hn), before_before,
        List.append_assoc, List.singleton_append]
  | case4 run c s hb hq ih =>
      have hc : c ≠ '\n' := fun h => hn (h ▸ List.mem_cons_self)
      rw [quotedAfter, trailingAfter_cons hb, List.append_assoc, List.cons_append,
        readString_other hq hb hc, ih (List.not_mem_of_not_mem_cons hn), before_before,
        List.append_assoc, List.singleton_append]
      · exact hb
      · exact hq

theorem replicate_append_cons_inj {α : Type} {a b : α} (hab : a ≠ b) {m n : Nat} {x y : List α} :
    List.replicate m a ++ b :: x = List.replicate n a ++ b :: y ↔ m = n ∧ x = y := by
  induction m generalizing n with
  | zero => cases n <;> simp [List.replicate_succ, hab.symm]
  | succ m ih => cases n <;> simp [List.replicate_succ, hab, ih]

/-- The places of quotes in a text with one more character in front. -/
theorem forall_cut_cons {c : Char} {s : List Char} {holds : List Char → Prop} :
    (∀ a b, c :: s = a ++ '"' :: b → holds a) ↔
      (c = '"' → holds []) ∧ ∀ a b, s = a ++ '"' :: b → holds (c :: a) := by
  constructor
  · intro h
    exact ⟨fun hc => h [] s (by rw [hc, List.nil_append]),
      fun a b hs => h (c :: a) b (by rw [hs, List.cons_append])⟩
  · rintro ⟨hnil, hcons⟩ a b hs
    cases a with
    | nil => exact hnil (List.cons.inj hs).1
    | cons d a =>
        obtain ⟨rfl, hrest⟩ := List.cons.inj hs
        exact hcons a b hrest

/-- **A text in quotes stands for itself iff all its quotes stand behind an even number of
backslashes.** -/
theorem quotedAfter_eq_iff (run : Nat) (s : List Char) :
    quotedAfter run s ++ List.replicate (trailingAfter run s) '\\' =
        List.replicate run '\\' ++ s ↔
      ∀ a b, s = a ++ '"' :: b → trailingAfter run a % 2 = 0 := by
  fun_induction quotedAfter run s with
  | case1 run => simp
  | case2 run s ih =>
      have hs : List.replicate run '\\' ++ '\\' :: s = List.replicate (run + 1) '\\' ++ s := by
        rw [List.replicate_succ', List.append_assoc, List.singleton_append]
      rw [forall_cut_cons, hs, trailingAfter_backslash, ih]
      simp
  | case3 run s ih =>
      have hquote : '"' ≠ '\\' := by decide
      have hrun : run - run % 2 = run ↔ run % 2 = 0 := by omega
      rw [forall_cut_cons, trailingAfter_cons hquote, List.append_assoc, List.cons_append,
        replicate_append_cons_inj hquote.symm, hrun]
      simpa [trailingAfter_cons hquote] using fun _ => ih
  | case4 run c s hb hq ih =>
      rw [forall_cut_cons, trailingAfter_cons hb, List.append_assoc, List.cons_append,
        List.append_cancel_left_eq, List.cons.injEq, and_iff_right (fun h => absurd h hq)]
      simpa [trailingAfter_cons hb] using ih

end

/-! ### Words -/

section
variable {p : List Char → Bool} {seen w rest s : List Char} {c : Char}

theorem longest_eq_none (h : ∀ u, u <+: s → p (seen ++ u) = false) : longest p seen s = none := by
  induction s generalizing seen with
  | nil =>
      have hseen := h [] List.nil_prefix
      rw [List.append_nil] at hseen
      rw [longest, hseen, if_neg Bool.false_ne_true]
  | cons c s ih =>
      have hseen := h [] List.nil_prefix
      rw [List.append_nil] at hseen
      have hlonger : longest p (seen ++ [c]) s = none := by
        refine ih fun u hu => ?_
        rw [List.append_assoc, List.singleton_append]
        exact h (c :: u) (List.cons_prefix_cons.mpr ⟨rfl, hu⟩)
      rw [longest, hlonger, hseen, if_neg Bool.false_ne_true, Option.none_or]

/-- A beginning is the longest if it cannot be continued. -/
theorem longest_append (hw : p (seen ++ w) = true)
    (hno : ∀ u, u ≠ [] → u <+: rest → p (seen ++ w ++ u) = false) :
    longest p seen (w ++ rest) = some (seen ++ w, rest) := by
  induction w generalizing seen with
  | nil =>
      rw [List.append_nil] at hw hno ⊢
      cases rest with
      | nil => rw [List.nil_append, longest, if_pos hw]
      | cons c rest =>
          have hlonger : longest p (seen ++ [c]) rest = none := by
            refine longest_eq_none fun u hu => ?_
            rw [List.append_assoc, List.singleton_append]
            exact hno (c :: u) (List.cons_ne_nil c u) (List.cons_prefix_cons.mpr ⟨rfl, hu⟩)
          rw [List.nil_append, longest, hlonger, if_pos hw, Option.none_or]
  | cons c w ih =>
      have hcons : seen ++ [c] ++ w = seen ++ c :: w := by
        rw [List.append_assoc, List.singleton_append]
      have hlonger : longest p (seen ++ [c]) (w ++ rest) = some (seen ++ [c] ++ w, rest) :=
        ih (hcons ▸ hw) (hcons ▸ hno)
      rw [List.cons_append, longest, hlonger, Option.some_or, hcons]

theorem isWordPart_of_isUnsigned (h : isUnsigned s = true) : ∀ c ∈ s, isWordPart c = true := by
  have hdigit : ∀ c : Char, c.isDigit = true → isWordPart c = true := fun c hc => by
    simp [isWordPart, hc]
  intro c hc
  rw [← List.takeWhile_append_dropWhile (p := Char.isDigit) (l := s), List.mem_append] at hc
  rw [isUnsigned] at h
  rcases hc with hwhole | hrest
  · exact hdigit c (List.all_eq_true.mp List.all_takeWhile c hwhole)
  · split at h
    · rename_i hnil
      rw [hnil] at hrest
      cases hrest
    · rename_i fs hfs
      rw [hfs] at hrest
      rcases List.mem_cons.mp hrest with rfl | hfs
      · decide
      · exact hdigit c (List.all_eq_true.mp (Bool.and_eq_true_iff.mp h).1 c hfs)
    · cases h

theorem isWordPart_of_isNumeral (h : isNumeral s = true) : ∀ c ∈ s, isWordPart c = true := by
  unfold isNumeral at h
  split at h
  · intro c hc
    rcases List.mem_cons.mp hc with rfl | hc
    · decide
    · exact isWordPart_of_isUnsigned h c hc
  · exact isWordPart_of_isUnsigned h

theorem isWordPart_of_isWord (h : isWord s = true) : ∀ c ∈ s, isWordPart c = true := by
  cases s with
  | nil => cases h
  | cons c s =>
      rcases Bool.or_eq_true_iff.mp h with hnumeral | hletters
      · exact isWordPart_of_isNumeral hnumeral
      · obtain ⟨hc, hs⟩ := Bool.and_eq_true_iff.mp hletters
        intro d hd
        rcases List.mem_cons.mp hd with rfl | hd
        · simp [isWordPart, hc]
        · have hpart := List.all_eq_true.mp hs d hd
          rw [isWordPart, hpart]
          rfl

/-- A bare word is read whole. -/
theorem read_word (hw : isWord w = true) (hrest : EndsWord rest) :
    read (w ++ rest) = some (if isKeyword w then .keyword w else .id w, rest) := by
  have hlongest : longest isWord [] (w ++ rest) = some (w, rest) := by
    refine longest_append hw fun u hu hprefix => ?_
    rw [List.nil_append, Bool.eq_false_iff]
    intro hlonger
    obtain ⟨c, u, rfl⟩ := List.exists_cons_of_ne_nil hu
    obtain ⟨t, rfl⟩ := hprefix
    have hc := isWordPart_of_isWord hlonger c (List.mem_append_right _ List.mem_cons_self)
    rw [hrest c rfl] at hc
    cases hc
  cases w with
  | nil => cases hw
  | cons c w =>
      have hc := isWordPart_of_isWord hw c List.mem_cons_self
      have hquote : c ≠ '"' := fun h => absurd hc (h ▸ by decide)
      have hbracket : c ≠ '<' := fun h => absurd hc (h ▸ by decide)
      rw [List.cons_append] at hlongest ⊢
      rw [read, hlongest]
      · rfl
      · exact fun _ h => hquote (List.cons.inj h).1
      · exact fun _ h => hbracket (List.cons.inj h).1

theorem withoutNewline_of_not_mem (hn : '\n' ∉ s) : withoutNewline s = s :=
  if_neg fun h => hn (List.mem_of_getLast? h)

/-- What needs no quotes is a word and no keyword. -/
theorem isWord_of_isBare (hn : '\n' ∉ s) (h : isBare s = true) :
    isWord s = true ∧ isKeyword s = false := by
  rw [isBare, withoutNewline_of_not_mem hn, Bool.and_eq_true_iff, Bool.or_eq_true_iff,
    Bool.not_eq_true'] at h
  obtain ⟨hword, hkeyword⟩ := h
  refine ⟨?_, hkeyword⟩
  cases s with
  | nil => exact absurd hword (by decide)
  | cons c s =>
      rw [isWord, Bool.or_eq_true_iff, Bool.and_eq_true_iff]
      rcases hword with hname | hnumeral
      · obtain ⟨hc, hs⟩ := Bool.and_eq_true_iff.mp hname
        refine .inr ⟨by rw [isLetter, hc, Bool.true_or], List.all_eq_true.mpr fun d hd => ?_⟩
        have hd := List.all_eq_true.mp hs d hd
        simp only [isNameChar, Char.isAlphanum, isLetter, isNameStart, Bool.or_eq_true] at hd ⊢
        tauto
      · exact .inl hnumeral

end

/-! ### Written identifiers -/

/-- What a token stands for, it stands for alone. -/
theorem StandsFor.read_eq {token text : String} (h : StandsFor token text) :
    read token.toList = some (.id text.toList, []) := by
  have hread := h [] nofun
  rwa [List.append_nil] at hread

section
variable {s : String}

theorem isHtmlLike_of_isEnclosed {t : List Char} (h : IsEnclosed t) : isHtmlLike t = true := by
  obtain ⟨inner, rfl⟩ := h
  have hlast : ('<' :: inner ++ ['>']).getLast? = some '>' := List.getLast?_concat
  have hself : withoutNewline ('<' :: inner ++ ['>']) = '<' :: inner ++ ['>'] :=
    if_neg (by rw [hlast]; decide)
  have hlength : 2 ≤ ('<' :: inner ++ ['>']).length := by simp
  rw [isHtmlLike, hself, hlast, decide_eq_true hlength]
  rfl

theorem isHtmlLike_iff {t : List Char} (hn : '\n' ∉ t) : isHtmlLike t = true ↔ IsEnclosed t := by
  refine ⟨fun h => ?_, isHtmlLike_of_isEnclosed⟩
  rw [isHtmlLike, withoutNewline_of_not_mem hn] at h
  simp only [Bool.and_eq_true, beq_iff_eq, decide_eq_true_eq] at h
  obtain ⟨⟨hhead, hlength⟩, hlast⟩ := h
  obtain ⟨u, rfl⟩ := List.head?_eq_some_iff.mp hhead
  rcases List.eq_nil_or_concat u with rfl | ⟨inner, c, rfl⟩
  · exact absurd hlength (by decide)
  · rw [List.concat_eq_append, ← List.cons_append, List.getLast?_concat,
      Option.some.injEq] at hlast
    exact ⟨inner, by rw [List.concat_eq_append, hlast, List.cons_append]⟩

theorem trailing_of_not_mem {t : List Char} (h : '\\' ∉ t) : trailing t = 0 := by
  induction t with
  | nil => rfl
  | cons c t ih =>
      have hc : c ≠ '\\' := fun hc => h (hc ▸ List.mem_cons_self)
      rw [trailing, trailingAfter_cons hc]
      exact ih (List.not_mem_of_not_mem_cons h)

theorem token_of_isEnclosed (h : IsEnclosed s.toList) : token s = s := by
  rw [token, isHtmlLike_of_isEnclosed h, Bool.true_or, if_pos rfl]

theorem token_of_isBare (h : isBare s.toList = true) : token s = s := by
  rw [token, h, Bool.or_true, if_pos rfl]

theorem toList_token (hn : '\n' ∉ s.toList) (henclosed : ¬ IsEnclosed s.toList)
    (hbare : isBare s.toList = false) :
    (token s).toList = '"' :: (escapeQuotes s.toList ++ ['"']) := by
  have hhtml : isHtmlLike s.toList = false :=
    Bool.eq_false_iff.mpr fun h => henclosed ((isHtmlLike_iff hn).mp h)
  rw [token, hhtml, hbare, Bool.or_false, if_neg Bool.false_ne_true, String.toList_ofList,
    List.cons_append]

/-- What is read of a text in quotes, in front of anything. -/
theorem read_quoted (hn : '\n' ∉ s.toList) (henclosed : ¬ IsEnclosed s.toList)
    (hbare : isBare s.toList = false) (rest : List Char) :
    read ((token s).toList ++ rest) =
      (before (quotedAfter 0 s.toList)
        (readString (List.replicate (trailing s.toList) '\\' ++ '"' :: rest))).map
          fun (t, rest) => (.id t, rest) := by
  rw [toList_token hn henclosed hbare, List.cons_append, List.append_assoc, List.singleton_append,
    read, escapeQuotes, readString_escapeQuotesAfter hn, trailing]

/-- A text that is neither enclosed nor ends in an odd number of backslashes is written as one
token. -/
theorem read_token (hn : '\n' ∉ s.toList) (henclosed : ¬ IsEnclosed s.toList)
    (heven : trailing s.toList % 2 = 0) {rest : List Char} (hrest : EndsWord rest) :
    read ((token s).toList ++ rest) =
      some (.id (quotedAfter 0 s.toList ++ List.replicate (trailing s.toList) '\\'), rest) := by
  cases hbare : isBare s.toList with
  | true =>
      obtain ⟨hword, hkeyword⟩ := isWord_of_isBare hn hbare
      have hself := (quotedAfter_eq_iff 0 s.toList).mpr fun a b hs =>
        absurd (isWordPart_of_isWord hword '"' (hs ▸ by simp)) (by decide)
      rw [token_of_isBare hbare, read_word hword hrest, hkeyword, if_neg Bool.false_ne_true]
      exact congrArg (fun t => some (Lexeme.id t, rest)) hself.symm
  | false =>
      rw [read_quoted hn henclosed hbare, readString_even heven]
      rfl

/-- A text enclosed in `<` and `>` is not written as an identifier. -/
theorem not_isComplete_of_isEnclosed (h : IsEnclosed s.toList) : ¬ IsComplete (token s) := by
  rintro ⟨text, hstands⟩
  have hread := hstands.read_eq
  obtain ⟨inner, hs⟩ := h
  rw [token_of_isEnclosed ⟨inner, hs⟩, hs, List.cons_append, read,
    Option.map_eq_some_iff] at hread
  obtain ⟨_, -, h⟩ := hread
  cases h

/-- A text that ends in an odd number of backslashes is not closed by its quote. -/
theorem not_isComplete_of_odd (hn : '\n' ∉ s.toList) (henclosed : ¬ IsEnclosed s.toList)
    (hodd : trailing s.toList % 2 = 1) : ¬ IsComplete (token s) := by
  rintro ⟨text, hread⟩
  have hread := hread [] nofun
  cases hbare : isBare s.toList with
  | true =>
      have hword := isWordPart_of_isWord (isWord_of_isBare hn hbare).1
      rw [trailing_of_not_mem fun h => absurd (hword '\\' h) (by decide)] at hodd
      cases hodd
  | false =>
      obtain ⟨n, hn'⟩ : ∃ n, trailing s.toList = n + 1 := ⟨trailing s.toList - 1, by omega⟩
      rw [read_quoted hn henclosed hbare, hn', readString_odd (by omega)] at hread
      cases hread

/-- **A written identifier is one whole token** iff the text is not enclosed in `<` and `>` and does
not end in an odd number of backslashes. -/
theorem isComplete_token_iff (hn : '\n' ∉ s.toList) :
    IsComplete (token s) ↔ ¬ IsEnclosed s.toList ∧ trailing s.toList % 2 = 0 := by
  constructor
  · intro h
    have henclosed : ¬ IsEnclosed s.toList := fun he => not_isComplete_of_isEnclosed he h
    refine ⟨henclosed, ?_⟩
    by_contra hodd
    exact not_isComplete_of_odd hn henclosed (Nat.mod_two_ne_zero.mp hodd) h
  · rintro ⟨henclosed, heven⟩
    refine ⟨String.ofList (quotedAfter 0 s.toList ++ List.replicate (trailing s.toList) '\\'),
      fun rest hrest => ?_⟩
    rw [String.toList_ofList]
    exact read_token hn henclosed heven hrest

/-- **It stands for the text itself** iff, moreover, every quote in the text has an even number of
backslashes in front of it. -/
theorem standsFor_token_iff (hn : '\n' ∉ s.toList) :
    StandsFor (token s) s ↔ IsComplete (token s) ∧
      ∀ a b, s.toList = a ++ '"' :: b → trailing a % 2 = 0 := by
  have hself := quotedAfter_eq_iff 0 s.toList
  constructor
  · intro h
    have hcomplete : IsComplete (token s) := ⟨s, h⟩
    obtain ⟨henclosed, heven⟩ := (isComplete_token_iff hn).mp hcomplete
    have hread := (h [] nofun).symm.trans (read_token hn henclosed heven nofun)
    refine ⟨hcomplete, hself.mp ?_⟩
    simpa [trailing] using hread.symm
  · rintro ⟨hcomplete, hquotes⟩ rest hrest
    obtain ⟨henclosed, heven⟩ := (isComplete_token_iff hn).mp hcomplete
    have hself := hself.mpr hquotes
    rw [read_token hn henclosed heven hrest, trailing, hself]
    rfl

/-- A text without newlines, quotes, backslashes and opening brackets stands for itself. -/
theorem standsFor_token (hn : '\n' ∉ s.toList) (hquote : '"' ∉ s.toList)
    (hbackslash : '\\' ∉ s.toList) (hbracket : '<' ∉ s.toList) : StandsFor (token s) s := by
  refine (standsFor_token_iff hn).mpr ⟨(isComplete_token_iff hn).mpr ⟨?_, ?_⟩, ?_⟩
  · rintro ⟨inner, hs⟩
    exact hbracket (hs ▸ List.mem_cons_self)
  · rw [trailing_of_not_mem hbackslash]
  · intro a b hs
    exact absurd (hs ▸ List.mem_append_right a List.mem_cons_self) hquote

/-- No token stands for two texts. -/
theorem eq_of_standsFor {token text text' : String} (h : StandsFor token text)
    (h' : StandsFor token text') : text = text' := by
  have hread := h.read_eq.symm.trans h'.read_eq
  exact String.ext (by simpa using hread)

end

end ThreatModel.Dot
