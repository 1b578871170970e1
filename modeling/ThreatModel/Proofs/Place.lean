import ThreatModel.Place
import ThreatModel.Proofs.Annotations.Fields
import ThreatModel.Proofs.Key
import ThreatModel.Proofs.Text.Codes

/-!
# Places — where a text is cut, and when two spellings meet

A text names a component in a zone if it can be cut at the first colon behind its first character so
that something is left behind it; a colon further right is never tried in vain, since what is left
behind the first one is longer (`ofText_of_cut`, `ofText_of_forall_cut`).

The dash in the key of a place is in neither of its halves, so the key determines both, even if they
are empty (`key_eq_iff`).

* `places_merge`: two spellings of places meet iff the keys of their zones and of their components
  do, what keys are made of, and what place a text names.
-/

namespace ThreatModel.Place

open Annotations (cut firstCut_of_cut exists_cut)
open Pattern

/-! ### What a text names -/

/-- The first colon behind the first character. -/
structure IsFirstColon (s : List Char) (i : Nat) : Prop where
  pos : 1 ≤ i
  colon : s[i]? = some ':'
  first : ∀ j, 1 ≤ j → j < i → s[j]? ≠ some ':'

/-- The text is the zone, a colon and the component, and that colon is the first one behind its
first character. -/
structure IsSplit (text : String) (p : Place) : Prop where
  text_eq : p.zone ++ ":" ++ p.component = text
  zone_ne : p.zone ≠ ""
  component_ne : p.component ≠ ""
  first : IsFirstColon text.toList p.zone.toList.length

section
variable {text : String} {u r : List Char}

/-- What is written behind the colon takes all that is left, if anything is. -/
theorem run_component {kept : Kept Part} (hr : r ≠ []) (hn : '\n' ∉ r) :
    (chain [.field .component, .finish]).run keep r kept =
      some ((.component, ⟨r, []⟩) :: kept) := by
  have hrun : (field Part.component).run (finish.run keep) (r ++ []) kept =
      some ((.component, ⟨r ++ [], []⟩) :: kept) := by
    refine run_field hr hn (fun a b hab _ hb kept' => if_neg ?_) rfl
    rw [List.append_nil]
    rintro (rfl | rfl)
    · exact hb rfl
    · exact hn (hab ▸ List.mem_append_right a (List.mem_singleton_self _))
  rwa [List.append_nil] at hrun

/-- A text is cut at the first colon behind its first character if something is left behind it. -/
theorem ofText_of_cut (hn : '\n' ∉ text.toList) (hcut : cut [':'] text.toList = some (u, r))
    (hr : r ≠ []) : ofText text = ⟨String.ofList u, String.ofList r⟩ := by
  have hfirst := firstCut_of_cut hcut
  have htext : text.toList = u ++ (":".toList ++ r) := hfirst.eq_append
  rw [htext, List.mem_append, List.mem_append, not_or, not_or] at hn
  have hmatch : written.match? text = some [(.component, ⟨r ++ [], []⟩),
      (.zone, ⟨u ++ (":".toList ++ r), ":".toList ++ r⟩)] := by
    rw [match?, htext]
    refine run_field hfirst.ne_nil hn.1 (fun a b hab ha hb kept => ?_) ?_
    · have hnone : afterText? ":".toList (b ++ (":".toList ++ r)) = none :=
        hfirst.afterText?_eq_none hab ha hb
      rw [run_chain_cons, run, hnone, Option.bind_none]
    · rw [List.append_nil]
      exact (run_lit ":" _ r _).trans (run_component hr hn.2.2)
  rw [ofText, hmatch]
  simp only [Match.get, Match.get?_cons_of_ne _ _ (by decide : Part.component ≠ Part.zone),
    Match.get?_cons_self, Option.getD_some]

/-- A text that cannot be cut so names a component that is a zone of its own. -/
theorem ofText_of_forall_cut (hcut : ∀ u r, cut [':'] text.toList = some (u, r) → r = []) :
    ofText text = ⟨text, text⟩ := by
  have hmatch : written.match? text = none := by
    rw [← Option.not_isSome_iff_eq_none, match?_isSome_iff]
    rintro ⟨m, s₁, hzone, s₂, hcolon, s₃, hcomponent, -⟩
    obtain ⟨u', hu', -, hs⟩ := reads_several.mp hzone
    obtain ⟨v, hv, -, rfl⟩ := reads_several.mp hcomponent
    obtain rfl : s₁ = ":".toList ++ (v ++ s₃) := hcolon
    -- the first colon leaves at least as much as the one that was read
    obtain ⟨u, r, hfirst, hsuffix⟩ := exists_cut hu' hs
    rw [hcut u r hfirst] at hsuffix
    exact hv (List.append_eq_nil_iff.mp (List.suffix_nil.mp hsuffix)).1
  rw [ofText, hmatch]

theorem isFirstColon_of_cut (hcut : cut [':'] text.toList = some (u, r)) :
    IsFirstColon text.toList u.length := by
  have hfirst := firstCut_of_cut hcut
  have htext : text.toList = u ++ ':' :: r := hfirst.eq_append
  refine ⟨List.length_pos_of_ne_nil hfirst.ne_nil, ?_, fun j hj hlt hcolon => ?_⟩
  · rw [htext, List.getElem?_append_right (Nat.le_refl _), Nat.sub_self]
    rfl
  · obtain ⟨c, u, rfl⟩ := List.exists_cons_of_ne_nil hfirst.ne_nil
    obtain ⟨j, rfl⟩ := Nat.exists_eq_add_of_le' hj
    rw [htext, List.getElem?_append_left hlt, List.getElem?_cons_succ] at hcolon
    exact hfirst.not_mem (List.mem_of_getElem? hcolon)

theorem isSplit_of_cut (hn : '\n' ∉ text.toList) (hcut : cut [':'] text.toList = some (u, r))
    (hr : r ≠ []) : IsSplit text (ofText text) := by
  have hfirst := firstCut_of_cut hcut
  rw [ofText_of_cut hn hcut hr]
  refine ⟨?_, ?_, ?_, ?_⟩
  · rw [← String.toList_inj, hfirst.eq_append]
    simp
  · exact fun h => hfirst.ne_nil (String.ofList_eq_empty_iff.mp h)
  · exact fun h => hr (String.ofList_eq_empty_iff.mp h)
  · rw [String.toList_ofList]
    exact isFirstColon_of_cut hcut

/-- A text that is split has a first colon in front of its last character. -/
theorem exists_isFirstColon_of_isSplit {p : Place} (h : IsSplit text p) :
    ∃ i, IsFirstColon text.toList i ∧ i + 1 < text.toList.length := by
  refine ⟨_, h.first, ?_⟩
  have hpos : 0 < p.component.toList.length :=
    List.length_pos_of_ne_nil fun hnil => h.component_ne (String.toList_eq_nil_iff.mp hnil)
  have hlen := congrArg (fun t => t.toList.length) h.text_eq
  simp only [String.toList_append, List.length_append] at hlen
  have hcolon : ":".toList.length = 1 := rfl
  omega

/-- Behind a first colon that does not end the text something is left to cut off. -/
theorem exists_cut_of_isFirstColon {i : Nat} (hi : IsFirstColon text.toList i)
    (hlast : i + 1 < text.toList.length) :
    ∃ u r, cut [':'] text.toList = some (u, r) ∧ r ≠ [] := by
  obtain ⟨hlt, hget⟩ := List.getElem?_eq_some_iff.mp hi.colon
  have htext : text.toList = text.toList.take i ++ ([':'] ++ text.toList.drop (i + 1)) := by
    rw [← hget, List.singleton_append, List.getElem_cons_drop, List.take_append_drop]
  have hzone : text.toList.take i ≠ [] := by
    rw [ne_eq, List.take_eq_nil_iff]
    rintro (h | h)
    · exact Nat.ne_of_gt hi.pos h
    · rw [h] at hlt
      exact Nat.not_lt_zero _ hlt
  obtain ⟨u, r, hcut, hsuffix⟩ := exists_cut hzone htext
  refine ⟨u, r, hcut, ?_⟩
  rintro rfl
  have hnil := List.suffix_nil.mp hsuffix
  exact Nat.not_le_of_lt hlast (List.drop_eq_nil_iff.mp hnil)

end

/-! ### Keys of places -/

/-- **The key of a place determines those of its zone and of its component.** -/
theorem key_eq_iff {p q : Place} :
    p.key = q.key ↔ keyOf p.zone = keyOf q.zone ∧ keyOf p.component = keyOf q.component := by
  have hdash : ∀ name, '-' ∉ (keyOf name).toList := fun name h =>
    absurd (keyOf_chars h) (by decide)
  have hkey : ∀ p : Place,
      p.key.toList = (keyOf p.zone).toList ++ '-' :: (keyOf p.component).toList := fun p => by
    simp [key]
  constructor
  · intro h
    rw [← String.toList_inj, hkey, hkey] at h
    obtain ⟨hzone, hcomponent⟩ := append_cons_inj (hdash p.zone) (hdash q.zone) h
    exact ⟨String.toList_inj.mp hzone, String.toList_inj.mp hcomponent⟩
  · rintro ⟨hzone, hcomponent⟩
    rw [key, key, hzone, hcomponent]

/-- **Spellings of places meet iff the normal forms of their halves do.**  Normal forms are texts of
a–z and 0–9, which are their own normal forms; that of two names in a row is those of the names in a
row, though lower-casing looks at what stands around a letter.

A text is split at the first colon behind its first character if that is not its last one, and names
a component that is a zone of its own otherwise. -/
theorem places_merge :
    (∀ p q : Place,
      p.key = q.key ↔ keyOf p.zone = keyOf q.zone ∧ keyOf p.component = keyOf q.component) ∧
    (∀ name, keyOf (keyOf name) = keyOf name) ∧
    (∀ name, ∀ c ∈ (keyOf name).toList, ('a' ≤ c ∧ c ≤ 'z') ∨ '0' ≤ c ∧ c ≤ '9') ∧
    (∀ name, (∀ c ∈ name.toList, ('a' ≤ c ∧ c ≤ 'z') ∨ '0' ≤ c ∧ c ≤ '9') → keyOf name = name) ∧
    (∀ name name', keyOf (name ++ name') = keyOf name ++ keyOf name') ∧
    ∀ text : String, '\n' ∉ text.toList →
      (IsSplit text (ofText text) ∨ ofText text = ⟨text, text⟩) ∧
        (IsSplit text (ofText text) ↔
          ∃ i, IsFirstColon text.toList i ∧ i + 1 < text.toList.length) := by
  refine ⟨fun p q => key_eq_iff, fun name => ?_, fun name c hc => isKeyChar_iff.mp (keyOf_chars hc),
    fun name h => keyOf_eq_self_iff.mpr fun c hc => isKeyChar_iff.mpr (h c hc), keyOf_append,
    fun text hn => ?_⟩
  · exact keyOf_eq_self_iff.mpr fun c => keyOf_chars
  · by_cases hcut : ∃ u r, cut [':'] text.toList = some (u, r) ∧ r ≠ []
    · obtain ⟨u, r, hcut, hr⟩ := hcut
      have hsplit := isSplit_of_cut hn hcut hr
      exact ⟨.inl hsplit, iff_of_true hsplit (exists_isFirstColon_of_isSplit hsplit)⟩
    · have hwhole : ofText text = ⟨text, text⟩ := ofText_of_forall_cut fun u r hur => by
        by_contra hr
        exact hcut ⟨u, r, hur, hr⟩
      refine ⟨.inr hwhole, iff_of_false (fun hsplit => ?_) ?_⟩
      · obtain ⟨i, hi, hlast⟩ := exists_isFirstColon_of_isSplit hsplit
        exact hcut (exists_cut_of_isFirstColon hi hlast)
      · rintro ⟨i, hi, hlast⟩
        exact hcut (exists_cut_of_isFirstColon hi hlast)

/-- A colon at the start is part of the zone, and one further right is part of the component. -/
theorem places_merge_colons : '\n' ∉ "::a:b".toList ∧ IsFirstColon "::a:b".toList 1 ∧
    IsSplit "::a:b" (ofText "::a:b") ∧ ofText "::a:b" = ⟨":", "a:b"⟩ := by
  have hn : '\n' ∉ "::a:b".toList := by decide
  have hfirst : IsFirstColon "::a:b".toList 1 := ⟨Nat.le_refl 1, rfl, fun j hj hlt => by omega⟩
  exact ⟨hn, hfirst, (places_merge.2.2.2.2.2 _ hn).2.mpr ⟨1, hfirst, by decide⟩, by decide +kernel⟩

/-- A Kelvin sign and a dotted I have letters in their lower case that count, a sigma has not. -/
example : Place.key ⟨"\u212A-\u0130", "ΟΔΟΣ 7"⟩ = "ki-7" := by decide +kernel

end ThreatModel.Place
