import ThreatModel.Proofs.Text.Lines
import ThreatModel.Text.Utf8

/-!
# UTF-8 — ill-formed bytes harm nothing but themselves

`Item` says what one item of a scan is read from: a character from its bytes, or an ill-formed part,
which is a byte that starts nothing or the bytes of a character up to where it breaks off.  Bytes
below 0x80 belong to no item but their own, so a scan starts anew at each of them (`scan_append`),
and line ends are read where they are written and nowhere else (`isLine_decodeLossy`).

`decodeLossy_encode`: every text is read from its bytes.
-/

namespace ThreatModel.Text

/-! ### Items -/

/-- The first item of a scan, and the bytes behind it.  A character that breaks off is an item up to
the byte that does not continue it. -/
inductive Item : List UInt8 → Option Char → List UInt8 → Prop where
  | ascii {b : UInt8} {s : List UInt8} (hb : b < 0x80) :
      Item (b :: s) (some (Char.ofNat b.toNat)) s
  | stray {b : UInt8} {s : List UInt8} (hb : ¬ b < 0x80) (hlead : leadBounds? b = none) :
      Item (b :: s) none s
  | brokenAtSecond {b lo hi : UInt8} {more : Nat} {s : List UInt8}
      (hlead : leadBounds? b = some (more, lo, hi))
      (hs : ∀ c ∈ s.head?, (decide (lo ≤ c) && decide (c ≤ hi)) = false) :
      Item (b :: s) none s
  | two {b c lo hi : UInt8} {s : List UInt8} (hlead : leadBounds? b = some (1, lo, hi))
      (hc : (decide (lo ≤ c) && decide (c ≤ hi)) = true) :
      Item (b :: c :: s) (some (Char.ofNat (b.toNat % 0x20 * 0x40 + low6 c))) s
  | brokenAtThird {b c lo hi : UInt8} {more : Nat} {s : List UInt8}
      (hlead : leadBounds? b = some (more, lo, hi)) (hmore : more ≠ 1)
      (hc : (decide (lo ≤ c) && decide (c ≤ hi)) = true)
      (hs : ∀ d ∈ s.head?, isContinuation d = false) : Item (b :: c :: s) none s
  | three {b c d lo hi : UInt8} {s : List UInt8} (hlead : leadBounds? b = some (2, lo, hi))
      (hc : (decide (lo ≤ c) && decide (c ≤ hi)) = true) (hd : isContinuation d = true) :
      Item (b :: c :: d :: s)
        (some (Char.ofNat ((b.toNat % 0x10 * 0x40 + low6 c) * 0x40 + low6 d))) s
  | brokenAtFourth {b c d lo hi : UInt8} {more : Nat} {s : List UInt8}
      (hlead : leadBounds? b = some (more, lo, hi)) (hmore : more ≠ 1) (hmore' : more ≠ 2)
      (hc : (decide (lo ≤ c) && decide (c ≤ hi)) = true) (hd : isContinuation d = true)
      (hs : ∀ e ∈ s.head?, isContinuation e = false) : Item (b :: c :: d :: s) none s
  | four {b c d e lo hi : UInt8} {more : Nat} {s : List UInt8}
      (hlead : leadBounds? b = some (more, lo, hi)) (hmore : more ≠ 1) (hmore' : more ≠ 2)
      (hc : (decide (lo ≤ c) && decide (c ≤ hi)) = true) (hd : isContinuation d = true)
      (he : isContinuation e = true) :
      Item (b :: c :: d :: e :: s)
        (some (Char.ofNat (((b.toNat % 8 * 0x40 + low6 c) * 0x40 + low6 d) * 0x40 + low6 e))) s

variable {b c lo hi : UInt8} {more : Nat} {s t rest : List UInt8} {item : Option Char}

/-- Which bytes start a character of each length, and the bounds of the next byte. -/
theorem leadBounds?_bounds (h : leadBounds? b = some (more, lo, hi)) :
    0x80 ≤ lo.toNat ∧ hi.toNat ≤ 0xBF ∧
      (more = 1 ∧ 0xC2 ≤ b.toNat ∧ b.toNat ≤ 0xDF ∨
        more = 2 ∧ 0xE0 ≤ b.toNat ∧ b.toNat ≤ 0xEF ∧ (b.toNat = 0xE0 → 0xA0 ≤ lo.toNat) ∨
        more = 3 ∧ 0xF0 ≤ b.toNat ∧ b.toNat ≤ 0xF4 ∧ (b.toNat = 0xF0 → 0x90 ≤ lo.toNat)) := by
  simp only [leadBounds?, Bool.and_eq_true, decide_eq_true_eq, beq_iff_eq, UInt8.le_iff_toNat_le,
    ← UInt8.toNat_inj] at h
  split_ifs at h <;> simp only [Option.some.injEq, Prod.mk.injEq] at h <;>
    obtain ⟨rfl, rfl, rfl⟩ := h <;> simp_all <;> omega

theorem not_lt_of_leadBounds? (h : leadBounds? b = some (more, lo, hi)) : ¬ b < 0x80 := by
  have hbounds := leadBounds?_bounds h
  rw [UInt8.lt_iff_toNat_lt]
  simp only [UInt8.reduceToNat]
  omega

theorem Item.scan_eq (h : Item s item rest) : scan s = item :: scan rest := by
  cases h with
  | ascii hb => exact scan_ascii hb _
  | stray hb hlead => rw [scan, if_neg hb, hlead]
  | brokenAtSecond hlead hs =>
      rw [scan, if_neg (not_lt_of_leadBounds? hlead), hlead]
      cases rest with
      | nil => simp [scan]
      | cons c rest => simp [hs c rfl]
  | two hlead hc => rw [scan, if_neg (not_lt_of_leadBounds? hlead), hlead]; simp [hc]
  | brokenAtThird hlead hmore hc hs =>
      rw [scan, if_neg (not_lt_of_leadBounds? hlead), hlead]
      cases rest with
      | nil => simp [scan, hc, hmore]
      | cons d rest => simp [hs d rfl, hc, hmore]
  | three hlead hc hd => rw [scan, if_neg (not_lt_of_leadBounds? hlead), hlead]; simp [hc, hd]
  | brokenAtFourth hlead hmore hmore' hc hd hs =>
      rw [scan, if_neg (not_lt_of_leadBounds? hlead), hlead]
      cases rest with
      | nil => simp [scan, hc, hmore, hmore', hd]
      | cons e rest => simp [hs e rfl, hc, hmore, hmore', hd]
  | four hlead hmore hmore' hc hd he =>
      rw [scan, if_neg (not_lt_of_leadBounds? hlead), hlead]
      simp [hc, hmore, hmore', hd, he]

theorem exists_cons_of_head? {p : UInt8 → Bool} (h : ¬ ∀ c ∈ s.head?, p c = false) :
    ∃ c r, s = c :: r ∧ p c = true := by
  cases s with
  | nil => exact absurd nofun h
  | cons c r => exact ⟨c, r, rfl, by simpa using h⟩

/-- **Bytes have a first item, whatever they are.** -/
theorem exists_item (h : s ≠ []) : ∃ item rest, Item s item rest ∧ rest.length < s.length := by
  obtain ⟨b, s, rfl⟩ := List.exists_cons_of_ne_nil h
  by_cases hb : b < 0x80
  · exact ⟨_, _, .ascii hb, Nat.lt_succ_self _⟩
  cases hlead : leadBounds? b with
  | none => exact ⟨_, _, .stray hb hlead, Nat.lt_succ_self _⟩
  | some bounds =>
      obtain ⟨more, lo, hi⟩ := bounds
      by_cases hsecond : ∀ c ∈ s.head?, (decide (lo ≤ c) && decide (c ≤ hi)) = false
      · exact ⟨_, _, .brokenAtSecond hlead hsecond, Nat.lt_succ_self _⟩
      obtain ⟨c, s, rfl, hc⟩ := exists_cons_of_head? hsecond
      by_cases h1 : more = 1
      · exact ⟨_, _, .two (h1 ▸ hlead) hc, by simp only [List.length_cons]; omega⟩
      by_cases hthird : ∀ d ∈ s.head?, isContinuation d = false
      · exact ⟨_, _, .brokenAtThird hlead h1 hc hthird, by simp only [List.length_cons]; omega⟩
      obtain ⟨d, s, rfl, hd⟩ := exists_cons_of_head? hthird
      by_cases h2 : more = 2
      · exact ⟨_, _, .three (h2 ▸ hlead) hc hd, by simp only [List.length_cons]; omega⟩
      by_cases hfourth : ∀ e ∈ s.head?, isContinuation e = false
      · exact ⟨_, _, .brokenAtFourth hlead h1 h2 hc hd hfourth,
          by simp only [List.length_cons]; omega⟩
      obtain ⟨e, s, rfl, he⟩ := exists_cons_of_head? hfourth
      exact ⟨_, _, .four hlead h1 h2 hc hd he, by simp only [List.length_cons]; omega⟩

theorem Item.suffix (h : Item s item rest) : rest <:+ s := by
  cases h with
  | ascii | stray | brokenAtSecond => exact List.suffix_cons _ _
  | two | brokenAtThird => exact (List.suffix_cons _ _).trans (List.suffix_cons _ _)
  | three | brokenAtFourth => exact ⟨[_, _, _], rfl⟩
  | four => exact ⟨[_, _, _, _], rfl⟩

/-! ### Scans of bytes put together -/

/-- The byte behind some bytes continues nothing if it is below 0x80. -/
theorem forall_head?_append {p : UInt8 → Bool} (hs : ∀ c ∈ s.head?, p c = false)
    (ht : ∀ a ∈ t.head?, a < 0x80) (hp : ∀ a < 0x80, p a = false) :
    ∀ c ∈ (s ++ t).head?, p c = false := by
  cases s with
  | nil => exact fun c hc => hp c (ht c hc)
  | cons => exact hs

theorem isContinuation_of_lt (h : b < 0x80) : isContinuation b = false := by
  have hle : ¬ 0x80 ≤ b := UInt8.not_le.mpr h
  simp [isContinuation, hle]

/-- Bytes below 0x80 are no part of the item in front of them. -/
theorem Item.append (h : Item s item rest) (ht : ∀ a ∈ t.head?, a < 0x80) :
    Item (s ++ t) item (rest ++ t) := by
  cases h with
  | ascii hb => exact .ascii hb
  | stray hb hlead => exact .stray hb hlead
  | brokenAtSecond hlead hs =>
      refine .brokenAtSecond hlead (forall_head?_append hs ht fun a ha => ?_)
      have hlo := (leadBounds?_bounds hlead).1
      have ha' := UInt8.lt_iff_toNat_lt.mp ha
      rw [decide_eq_false (p := _ ≤ a), Bool.false_and]
      rw [UInt8.le_iff_toNat_le]
      simp only [UInt8.reduceToNat] at ha'
      omega
  | two hlead hc => exact .two hlead hc
  | brokenAtThird hlead hmore hc hs =>
      exact .brokenAtThird hlead hmore hc
        (forall_head?_append hs ht fun _ => isContinuation_of_lt)
  | three hlead hc hd => exact .three hlead hc hd
  | brokenAtFourth hlead hmore hmore' hc hd hs =>
      exact .brokenAtFourth hlead hmore hmore' hc hd
        (forall_head?_append hs ht fun _ => isContinuation_of_lt)
  | four hlead hmore hmore' hc hd he => exact .four hlead hmore hmore' hc hd he

/-- **A scan starts anew at each byte below 0x80.** -/
theorem scan_append (ht : ∀ a ∈ t.head?, a < 0x80) : scan (s ++ t) = scan s ++ scan t := by
  induction hlen : s.length using Nat.strong_induction_on generalizing s with
  | _ n ih =>
      by_cases hs : s = []
      · rw [hs, List.nil_append, scan, List.nil_append]
      · obtain ⟨item, rest, hitem, hrest⟩ := exists_item hs
        rw [(hitem.append ht).scan_eq, hitem.scan_eq, ih _ (hlen ▸ hrest) rfl, List.cons_append]

theorem decodeLossy_append (ht : ∀ a ∈ t.head?, a < 0x80) :
    decodeLossy (s ++ t) = decodeLossy s ++ decodeLossy t := by
  rw [decodeLossy, scan_append ht, List.map_append]
  rfl

theorem decodeLossy_nil : decodeLossy [] = [] := by
  rw [decodeLossy, scan, List.map_nil]

theorem decodeLossy_cons (hb : b < 0x80) :
    decodeLossy (b :: s) = Char.ofNat b.toNat :: decodeLossy s := by
  rw [decodeLossy, scan_ascii hb]
  rfl

theorem decodeLossy_append_of_getLast? (hs : s.getLast? = some b) (hb : b < 0x80) :
    decodeLossy (s ++ t) = decodeLossy s ++ decodeLossy t := by
  obtain ⟨s, rfl⟩ := List.getLast?_eq_some_iff.mp hs
  have hhead : ∀ u : List UInt8, ∀ a ∈ (b :: u).head?, a < 0x80 := fun u a ha => by
    rwa [← Option.some.inj ha]
  rw [List.append_assoc, List.singleton_append, decodeLossy_append (hhead t),
    decodeLossy_append (hhead []), decodeLossy_cons hb, decodeLossy_cons hb, decodeLossy_nil,
    List.append_assoc, List.singleton_append]

theorem getLast?_decodeLossy (hs : s.getLast? = some b) (hb : b < 0x80) :
    (decodeLossy s).getLast? = some (Char.ofNat b.toNat) := by
  obtain ⟨s, rfl⟩ := List.getLast?_eq_some_iff.mp hs
  rw [decodeLossy_append (fun a ha => by rwa [← Option.some.inj ha]), decodeLossy_cons hb,
    decodeLossy_nil]
  exact List.getLast?_concat

/-! ### Line ends -/

theorem toNat_ofNat_eq {n : Nat} (h : Char.ofNat n ≠ '\x00') : (Char.ofNat n).toNat = n := by
  by_cases hn : n.isValidChar
  · rw [Char.ofNat, dif_pos hn]
    rfl
  · exact absurd (by rw [Char.ofNat, dif_neg hn]; rfl) h

theorem ofNat_ne_of_le {n : Nat} {a : Char} (hn : 0x80 ≤ n) (hne : a ≠ '\x00')
    (hlt : a.toNat < 0x80) : Char.ofNat n ≠ a := by
  rintro rfl
  rw [toNat_ofNat_eq hne] at hlt
  omega

theorem within_iff :
    (decide (lo ≤ c) && decide (c ≤ hi)) = true ↔ lo.toNat ≤ c.toNat ∧ c.toNat ≤ hi.toNat := by
  simp [UInt8.le_iff_toNat_le]

/-- **ASCII is read from its own bytes only.** -/
theorem Item.eq_cons {a : Char} (h : Item s (some a) rest) (hne : a ≠ '\x00')
    (hlt : a.toNat < 0x80) : s = a.toNat.toUInt8 :: rest := by
  generalize hitem : some a = item at h
  cases h with
  | ascii hb =>
      obtain rfl := Option.some.inj hitem
      rw [toNat_ofNat_eq hne]
      simp
  | two hlead hc =>
      have hbounds := leadBounds?_bounds hlead
      have hc := within_iff.mp hc
      refine absurd (Option.some.inj hitem).symm (ofNat_ne_of_le ?_ hne hlt)
      rw [low6]
      omega
  | three hlead hc hd =>
      have hbounds := leadBounds?_bounds hlead
      have hc := within_iff.mp hc
      refine absurd (Option.some.inj hitem).symm (ofNat_ne_of_le ?_ hne hlt)
      rw [low6, low6]
      omega
  | four hlead hmore hmore' hc hd he =>
      have hbounds := leadBounds?_bounds hlead
      have hc := within_iff.mp hc
      refine absurd (Option.some.inj hitem).symm (ofNat_ne_of_le ?_ hne hlt)
      rw [low6, low6, low6]
      omega
  | stray | brokenAtSecond | brokenAtThird | brokenAtFourth => cases hitem

/-- Bytes are read as nothing only if there are none. -/
theorem decodeLossy_ne_nil (h : s ≠ []) : decodeLossy s ≠ [] := by
  obtain ⟨item, rest, hitem, -⟩ := exists_item h
  rw [decodeLossy, hitem.scan_eq]
  exact List.cons_ne_nil _ _

theorem head?_of_head?_decodeLossy {a : Char} (h : (decodeLossy s).head? = some a)
    (hne : a ≠ '\x00') (hlt : a.toNat < 0x80) : s.head? = some a.toNat.toUInt8 := by
  have hs : s ≠ [] := by
    rintro rfl
    rw [decodeLossy_nil] at h
    cases h
  obtain ⟨item, rest, hitem, -⟩ := exists_item hs
  rw [decodeLossy, hitem.scan_eq, List.map_cons, List.head?_cons, Option.some.injEq] at h
  cases item with
  | none =>
      rw [← h] at hlt
      exact absurd hlt (by decide)
  | some c =>
      obtain rfl : c = a := h
      rw [hitem.eq_cons hne hlt, List.head?_cons]

theorem mem_of_mem_scan {a : Char} (h : some a ∈ scan s) (hne : a ≠ '\x00')
    (hlt : a.toNat < 0x80) : a.toNat.toUInt8 ∈ s := by
  induction hlen : s.length using Nat.strong_induction_on generalizing s with
  | _ n ih =>
      have hs : s ≠ [] := by
        rintro rfl
        rw [scan] at h
        cases h
      obtain ⟨item, rest, hitem, hrest⟩ := exists_item hs
      rw [hitem.scan_eq] at h
      rcases List.mem_cons.mp h with rfl | h
      · rw [hitem.eq_cons hne hlt]
        exact List.mem_cons_self
      · exact hitem.suffix.subset (ih _ (hlen ▸ hrest) h rfl)

/-- **Bytes without line ends are read as one line**, ill-formed or not. -/
theorem isLine_decodeLossy (hr : 0x0D ∉ s) (hn : 0x0A ∉ s) : IsLine (decodeLossy s) := by
  have hmem : ∀ a : Char, a ∈ decodeLossy s → a ≠ Char.ofNat 0xFFFD → some a ∈ scan s := by
    intro a ha hne
    obtain ⟨item, hitem, hdecoded⟩ := List.mem_map.mp ha
    cases item with
    | none => exact absurd hdecoded.symm hne
    | some a' => exact hdecoded ▸ hitem
  exact ⟨fun h => hr (mem_of_mem_scan (hmem _ h (by decide)) (by decide) (by decide)),
    fun h => hn (mem_of_mem_scan (hmem _ h (by decide)) (by decide) (by decide))⟩

/-! ### Texts and their bytes -/

theorem leadBounds?_two (h : 0xC2 ≤ b.toNat) (h' : b.toNat ≤ 0xDF) :
    leadBounds? b = some (1, 0x80, 0xBF) := by
  simp [leadBounds?, UInt8.le_iff_toNat_le, h, h']

/-- The bounds behind the first byte of three: nothing overlong, no surrogates. -/
theorem leadBounds?_three (h : 0xE0 ≤ b.toNat) (h' : b.toNat ≤ 0xEF) :
    ∃ lo hi, leadBounds? b = some (2, lo, hi) ∧
      (lo.toNat = 0x80 ∨ b.toNat = 0xE0 ∧ lo.toNat = 0xA0) ∧
      (hi.toNat = 0xBF ∨ b.toNat = 0xED ∧ hi.toNat = 0x9F) := by
  simp only [leadBounds?, Bool.and_eq_true, decide_eq_true_eq, beq_iff_eq, UInt8.le_iff_toNat_le,
    ← UInt8.toNat_inj, UInt8.reduceToNat]
  split_ifs <;> first | omega | exact ⟨_, _, rfl, by simp <;> omega⟩

/-- The bounds behind the first byte of four: nothing overlong, nothing beyond U+10FFFF. -/
theorem leadBounds?_four (h : 0xF0 ≤ b.toNat) (h' : b.toNat ≤ 0xF4) :
    ∃ lo hi, leadBounds? b = some (3, lo, hi) ∧
      (lo.toNat = 0x80 ∨ b.toNat = 0xF0 ∧ lo.toNat = 0x90) ∧
      (hi.toNat = 0xBF ∨ b.toNat = 0xF4 ∧ hi.toNat = 0x8F) := by
  simp only [leadBounds?, Bool.and_eq_true, decide_eq_true_eq, beq_iff_eq, UInt8.le_iff_toNat_le,
    ← UInt8.toNat_inj, UInt8.reduceToNat]
  split_ifs <;> first | omega | exact ⟨_, _, rfl, by simp <;> omega⟩

theorem exists_byte {n : Nat} (h : n < 0x100) : ∃ b, n.toUInt8 = b ∧ b.toNat = n :=
  ⟨_, rfl, UInt8.toNat_ofNat_of_lt' h⟩

theorem isContinuation_of_toNat (h : 0x80 ≤ b.toNat) (h' : b.toNat ≤ 0xBF) :
    isContinuation b = true :=
  within_iff.mpr ⟨h, h'⟩

/-- **A character is the first item of its bytes.** -/
theorem item_encodeChar (a : Char) (s : List UInt8) : Item (encodeChar a ++ s) (some a) s := by
  have hvalid : a.toNat < 0xD800 ∨ 0xDFFF < a.toNat ∧ a.toNat < 0x110000 := a.valid
  have hchar : ∀ n, n = a.toNat → some (Char.ofNat n) = some a := by
    rintro _ rfl
    rw [Char.ofNat_toNat]
  simp only [encodeChar]
  split_ifs with h1 h2 h3
  · obtain ⟨b, hb, hbn⟩ := exists_byte (n := a.toNat) (by omega)
    rw [hb, ← hchar b.toNat hbn]
    exact .ascii (UInt8.lt_iff_toNat_lt.mpr (hbn ▸ h1))
  · obtain ⟨b, hb, hbn⟩ := exists_byte (n := 0xC0 + a.toNat / 0x40) (by omega)
    obtain ⟨c, hc, hcn⟩ := exists_byte (n := 0x80 + a.toNat % 0x40) (by omega)
    rw [hb, hc, ← hchar (b.toNat % 0x20 * 0x40 + low6 c) (by rw [low6]; omega)]
    exact .two (leadBounds?_two (by omega) (by omega))
      (isContinuation_of_toNat (by omega) (by omega))
  · obtain ⟨b, hb, hbn⟩ := exists_byte (n := 0xE0 + a.toNat / 0x1000) (by omega)
    obtain ⟨c, hc, hcn⟩ := exists_byte (n := 0x80 + a.toNat / 0x40 % 0x40) (by omega)
    obtain ⟨d, hd, hdn⟩ := exists_byte (n := 0x80 + a.toNat % 0x40) (by omega)
    obtain ⟨lo, hi, hlead, hlo, hhi⟩ := leadBounds?_three (b := b) (by omega) (by omega)
    rw [hb, hc, hd, ← hchar ((b.toNat % 0x10 * 0x40 + low6 c) * 0x40 + low6 d)
      (by rw [low6, low6]; omega)]
    exact .three hlead (within_iff.mpr (by omega))
      (isContinuation_of_toNat (by omega) (by omega))
  · obtain ⟨b, hb, hbn⟩ := exists_byte (n := 0xF0 + a.toNat / 0x40000) (by omega)
    obtain ⟨c, hc, hcn⟩ := exists_byte (n := 0x80 + a.toNat / 0x1000 % 0x40) (by omega)
    obtain ⟨d, hd, hdn⟩ := exists_byte (n := 0x80 + a.toNat / 0x40 % 0x40) (by omega)
    obtain ⟨e, he, hen⟩ := exists_byte (n := 0x80 + a.toNat % 0x40) (by omega)
    obtain ⟨lo, hi, hlead, hlo, hhi⟩ := leadBounds?_four (b := b) (by omega) (by omega)
    rw [hb, hc, hd, he, ← hchar (((b.toNat % 8 * 0x40 + low6 c) * 0x40 + low6 d) * 0x40 + low6 e)
      (by rw [low6, low6, low6]; omega)]
    exact .four hlead (by decide) (by decide) (within_iff.mpr (by omega))
      (isContinuation_of_toNat (by omega) (by omega))
      (isContinuation_of_toNat (by omega) (by omega))

theorem scan_encode (l : List Char) : scan (encode l) = l.map some := by
  induction l with
  | nil => rw [encode, List.flatMap_nil, scan, List.map_nil]
  | cons c l ih => rw [List.map_cons, ← ih, ← (item_encodeChar c (encode l)).scan_eq]; rfl

/-- **Every text is read from its bytes.** -/
theorem decodeLossy_encode (l : List Char) : decodeLossy (encode l) = l := by
  rw [decodeLossy, scan_encode, List.map_map]
  exact List.map_id l

/-- No text is refused where only well-formed bytes are read. -/
theorem decode?_encode (l : List Char) : decode? (encode l) = some l := by
  rw [decode?, scan_encode]
  induction l with
  | nil => rfl
  | cons c l ih => rw [List.map_cons, List.mapM_cons, ih]; rfl

end ThreatModel.Text
