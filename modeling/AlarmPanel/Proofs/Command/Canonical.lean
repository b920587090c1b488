import AlarmPanel.Proofs.Command.Rendering
import AlarmPanel.Proofs.Command.Slicing
import AlarmPanel.Proofs.Text.Radix

namespace AlarmPanel.Command

open Numeral

/-- The text sets the power to a number that 64 bits hold, written as `r`. -/
structure SetsPower (s r : List Char) (n : Int) : Prop where
  parts : s = "POWER ".toList ++ r
  writes : Writes 10 r n
  bounds : -2 ^ 63 ≤ n ∧ n < 2 ^ 63

structure IsCanonical (r : List Char) (n : Int) : Prop where
  writes : Writes 10 r n
  plain : ¬ Redundant r

variable {s r ds : List Char} {c : Command} {n : UInt32} {m : Int}

theorem spells_iff : Spells 10 r m ↔ Writes 10 r m :=
  spells_iff_writes (by decide)

theorem isCanonical_iff : IsCanonical r m ↔ r = signed m := by
  constructor
  · intro h
    exact (eq_signed_iff (spells_iff.mpr h.writes)).mpr h.plain
  · rintro rfl
    have hs := spells_signed m
    exact ⟨spells_iff.mp hs, (eq_signed_iff hs).mp rfl⟩

theorem SetsPower.follows (h : SetsPower s r m) : Follows s (setPower (.ofInt m)) := by
  refine ⟨r, h.parts, ?_⟩
  rw [Int64.toInt_ofInt_of_le h.bounds.1 h.bounds.2]
  exact spells_iff.mpr h.writes

theorem IsIndex.index_eq (h : IsIndex ds n) : index n = ds := by
  have hlt := ofDigitChars_lt h.digits 0
  rw [h.length_eq] at hlt
  rw [index, ← h.value]
  exact padded_value h.digits h.length_eq (by decide) hlt

theorem Follows.render_eq (h : Follows s c) :
    c.render = s ∨ ∃ state r, c = setPower state ∧ SetsPower s r state.toInt := by
  cases c with
  | powerQuery | errorQuery | resetAll => exact .inl h.symm
  | setPower state =>
    obtain ⟨r, hs, hr⟩ := h
    exact .inr ⟨state, r, rfl, hs, spells_iff.mp hr, state.le_toInt, state.toInt_lt⟩
  | arm | disarm =>
    obtain ⟨ds, rfl, hi⟩ := h
    rw [← hi.index_eq]
    exact .inl (List.append_assoc _ _ _)
  | indexed =>
    obtain ⟨ds, rfl, hi⟩ := h
    rw [← hi.index_eq]
    exact .inl rfl
  | raw text => exact h.elim

theorem SetsPower.render_ofText {text : String} (h : SetsPower text.toList r m) :
    (ofText text).render = "POWER ".toList ++ signed m := by
  have hr (state : Int64) : (setPower state).render = "POWER ".toList ++ signed state.toInt := rfl
  rw [(ofText_eq_iff rfl).mpr h.follows, hr, Int64.toInt_ofInt_of_le h.bounds.1 h.bounds.2]

theorem text_ofText_eq (text : String) :
    (ofText text).text = text ∨ ∃ r n, SetsPower text.toList r n := by
  by_cases hf : ∃ c, Follows text.toList c
  · obtain ⟨c, hc⟩ := hf
    rw [(ofText_eq_iff hc.isRaw_eq).mpr hc]
    rcases hc.render_eq with h | ⟨state, r, -, h⟩
    · exact .inl (by rw [Command.text, h, String.ofList_toList])
    · exact .inr ⟨r, _, h⟩
  · rw [ofText_eq_raw_iff.mpr hf]
    exact .inl String.ofList_toList

theorem text_ofText_ne_iff (text : String) :
    (ofText text).text ≠ text ↔ ∃ r n, SetsPower text.toList r n ∧ Redundant r := by
  have hp {r : List Char} {n : Int} (h : SetsPower text.toList r n) :
      (ofText text).text ≠ text ↔ Redundant r := by
    have he : (ofText text).text = text ↔ r = signed n := by
      rw [← String.toList_inj, toList_text, h.render_ofText, h.parts, List.append_cancel_left_eq,
        eq_comm]
    rw [← not_iff_not, ne_eq, not_not, he, eq_signed_iff (spells_iff.mpr h.writes)]
  constructor
  · intro hne
    obtain ⟨r, n, h⟩ := (text_ofText_eq text).resolve_left hne
    exact ⟨r, n, h, (hp h).mp hne⟩
  · rintro ⟨r, n, h, hr⟩
    exact (hp h).mpr hr

theorem ofText_text_ofText (text : String) : ofText (ofText text).text = ofText text := by
  by_cases hf : ∃ c, Follows text.toList c
  · obtain ⟨c, hc⟩ := hf
    rw [(ofText_eq_iff hc.isRaw_eq).mpr hc]
    exact (ofText_text_iff hc.isRaw_eq).mpr hc.inRange
  · rw [ofText_eq_raw_iff.mpr hf]
    exact (ofText_text_raw_iff text).mpr hf

/-- The text of the command that a text is read as differs from it exactly where it sets the power
to a number with a redundant sign or zero, and sets the power to the canonical number then. So reading
it again changes nothing. No reading cuts through a character. -/
theorem text_ofText_exact (text : String) :
    ((ofText text).text ≠ text ↔ ∃ r n, SetsPower text.toList r n ∧ Redundant r) ∧
      (∀ r n, SetsPower text.toList r n →
        ∃ r', (ofText text).text = "POWER " ++ String.ofList r' ∧ IsCanonical r' n) ∧
      ofText (ofText text).text = ofText text ∧ ofOctets? text = some (ofText text) := by
  refine ⟨text_ofText_ne_iff text, ?_, ofText_text_ofText text, ofOctets?_eq text⟩
  intro r n h
  refine ⟨signed n, ?_, isCanonical_iff.mpr rfl⟩
  rw [Command.text, h.render_ofText, String.ofList_append, String.ofList_toList]

theorem text_ofText_exact_zeros :
    SetsPower "POWER -007".toList "-007".toList (-7) ∧ (ofText "POWER -007").text ≠ "POWER -007" ∧
      ∃ r, (ofText "POWER -007").text = "POWER " ++ String.ofList r ∧ IsCanonical r (-7) := by
  have h0 : IsDigit 10 '0' 0 := ⟨by decide, by decide⟩
  have h7 : IsDigit 10 '7' 7 := ⟨by decide, by decide⟩
  have hw : Writes 10 ('-' :: "007".toList) (-(7 : Nat)) :=
    .minus ⟨by simp, [0, 0, 7], .cons h0 (.cons h0 (.cons h7 .nil)), rfl⟩
  have h : SetsPower "POWER -007".toList "-007".toList (-7) := ⟨rfl, hw, by decide, by decide⟩
  have hr : Redundant "-007".toList := .minusZero _
  exact ⟨h, (text_ofText_exact _).1.mpr ⟨_, _, h, hr⟩, (text_ofText_exact _).2.1 _ _ h⟩

end AlarmPanel.Command
