import AlarmPanel.Reply
import AlarmPanel.Text.Utf8
import Mathlib.Algebra.Group.Nat.Defs

namespace AlarmPanel.Text.Utf8

theorem toNat_ofNat {n : Nat} (h : n.isValidChar) : (Char.ofNat n).toNat = n := by
  unfold Char.ofNat
  rw [dif_pos h]
  rfl

theorem ofNat_ne_colon {n : Nat} (h : 0x80 ≤ n) : Char.ofNat n ≠ ':' := by
  intro he
  by_cases hv : n.isValidChar
  · have hn := toNat_ofNat hv
    rw [he] at hn
    have hc : ':'.toNat = 0x3A := rfl
    omega
  · unfold Char.ofNat at he
    rw [dif_neg hv] at he
    cases he

/-- Completing the character makes no ASCII character. -/
def Owed.IsWide (o : Owed) : Prop :=
  0x80 ≤ o.low.toNat ∧ 0x80 ≤ (o.bits * 64 + (o.low.toNat - 0x80)) * 64 ^ o.more

theorem start_cases (b : UInt8) :
    b.toNat < 0x80 ∧ start b = ([Char.ofNat b.toNat], none) ∨
      0x80 ≤ b.toNat ∧ (start b = ([replacement], none) ∨ ∃ o, start b = ([], some o) ∧ o.IsWide) := by
  have lt (c : UInt8) : b < c ↔ b.toNat < c.toNat := UInt8.lt_iff_toNat_lt
  by_cases hb : b < 0x80
  · exact .inl ⟨(lt 0x80).mp hb, by rw [start, if_pos hb]⟩
  · refine .inr ⟨Nat.le_of_not_lt (mt (lt 0x80).mpr hb), ?_⟩
    simp only [start, if_neg hb]
    simp only [lt, ← UInt8.toNat_inj, UInt8.reduceToNat] at hb ⊢
    repeat' split
    all_goals first
      | exact .inl rfl
      | refine .inr ⟨_, rfl, Nat.le_of_ble_eq_true rfl, ?_⟩
        simp only [UInt8.reduceToNat]
        omega

theorem ne_terminator {b : UInt8} (h : 0x80 ≤ b.toNat) : b ≠ Reply.terminator := by
  rintro rfl
  exact absurd h (by decide)

theorem count_start (b : UInt8) : (start b).1.count ':' = [b].count Reply.terminator := by
  obtain ⟨hb, hs⟩ | ⟨hb, hs | ⟨o, hs, -⟩⟩ := start_cases b
  · have hc : Char.ofNat b.toNat = ':' ↔ b = Reply.terminator := by
      rw [← Char.toNat_inj, toNat_ofNat (.inl (by omega)), ← UInt8.toNat_inj]
      rfl
    rw [hs, List.count_singleton, List.count_singleton]
    simp only [beq_iff_eq, hc]
  · rw [hs, List.count_cons_of_ne (ne_terminator hb)]
    rfl
  · rw [hs, List.count_cons_of_ne (ne_terminator hb)]
    rfl

theorem isWide_start {b : UInt8} {o : Owed} (h : (start b).2 = some o) : o.IsWide := by
  obtain ⟨-, hs⟩ | ⟨-, hs | ⟨o', hs, hw⟩⟩ := start_cases b
  · rw [hs] at h; cases h
  · rw [hs] at h; cases h
  · rw [hs] at h; cases h; exact hw

theorem Owed.IsWide.next {o : Owed} {b : UInt8} (h : o.IsWide) (hb : o.low ≤ b) :
    0x80 ≤ b.toNat ∧ 0x80 ≤ (o.bits * 64 + (b.toNat - 0x80)) * 64 ^ o.more := by
  have hle : o.low.toNat ≤ b.toNat := UInt8.le_iff_toNat_le.mp hb
  refine ⟨Nat.le_trans h.1 hle, Nat.le_trans h.2 (Nat.mul_le_mul_right _ ?_)⟩
  omega

theorem count_decodeFrom (owed : Option Owed) (l : List UInt8) (hw : ∀ o ∈ owed, o.IsWide) :
    (decodeFrom owed l).count ':' = l.count Reply.terminator := by
  have hr : replacement ≠ ':' := by decide
  fun_induction decodeFrom owed l with
  | case1 => rfl
  | case2 => rfl
  | case3 b l ih =>
    rw [List.count_append, count_start, ih fun o ho ↦ isWide_start ho, ← List.count_append]
    rfl
  | case4 o b l hb bits hm ih =>
    obtain ⟨hlb, hbits⟩ := (hw o rfl).next hb.1
    rw [hm, Nat.pow_zero, Nat.mul_one] at hbits
    rw [List.count_cons_of_ne (ofNat_ne_colon hbits), ih (fun o ho ↦ by cases ho),
      List.count_cons_of_ne (ne_terminator hlb)]
  | case5 o b l hb bits k hm ih =>
    obtain ⟨hlb, hbits⟩ := (hw o rfl).next hb.1
    rw [hm, Nat.pow_succ', ← Nat.mul_assoc] at hbits
    rw [ih, List.count_cons_of_ne (ne_terminator hlb)]
    rintro o ⟨⟩
    exact ⟨Nat.le_refl _, by simpa using hbits⟩
  | case6 o b l hb ih =>
    rw [List.count_cons_of_ne hr, List.count_append, count_start,
      ih fun o ho ↦ isWide_start ho, ← List.count_append]
    rfl

theorem count_decode (l : List UInt8) : (decode l).count ':' = l.count Reply.terminator :=
  count_decodeFrom none l fun o ho ↦ by cases ho

theorem decodeFrom_append {owed : Option Owed} (hw : ∀ o ∈ owed, o.IsWide) (l : List UInt8) {b : UInt8}
    (hb : b < 0x80) (x : List UInt8) :
    decodeFrom owed (l ++ b :: x) = decodeFrom owed l ++ decode (b :: x) := by
  fun_induction decodeFrom owed l with
  | case1 => rfl
  | case2 o =>
    have hlow : ¬ o.low ≤ b := by
      have h := (hw o rfl).1
      have hlt : b.toNat < 0x80 := UInt8.lt_iff_toNat_lt.mp hb
      rw [UInt8.le_iff_toNat_le]
      omega
    rw [List.nil_append, decodeFrom, if_neg fun h ↦ hlow h.1]
    rfl
  | case3 c l ih =>
    rw [List.cons_append, decodeFrom, ih fun o ho ↦ isWide_start ho, List.append_assoc]
  | case4 o c l hc bits hm ih =>
    rw [List.cons_append, decodeFrom, if_pos hc, hm]
    exact congrArg (Char.ofNat bits :: ·) (ih fun o ho ↦ by cases ho)
  | case5 o c l hc bits k hm ih =>
    obtain ⟨hlb, hbits⟩ := (hw o rfl).next hc.1
    rw [hm, Nat.pow_succ', ← Nat.mul_assoc] at hbits
    rw [List.cons_append, decodeFrom, if_pos hc, hm]
    refine ih ?_
    rintro o ⟨⟩
    exact ⟨Nat.le_refl _, by simpa using hbits⟩
  | case6 o c l hc ih =>
    rw [List.cons_append, decodeFrom, if_neg hc, ih fun o ho ↦ isWide_start ho, List.cons_append,
      List.append_assoc]

theorem length_decode_append (l : List UInt8) {x : List UInt8} (hx : ∀ b ∈ x, b < 0x80) :
    (decode (l ++ x)).length = (decode l).length + x.length := by
  induction x generalizing l with
  | nil => rw [List.append_nil, List.length_nil, Nat.add_zero]
  | cons b x ih =>
    have hb := hx b List.mem_cons_self
    have hs : decode [b] = [Char.ofNat b.toNat] := by simp [decode, decodeFrom, start, hb]
    have hl : decode (l ++ [b]) = decode l ++ decode [b] :=
      decodeFrom_append (fun o ho ↦ by cases ho) l hb []
    rw [List.append_cons, ih (l ++ [b]) fun c hc ↦ hx c (List.mem_cons_of_mem _ hc), hl, hs]
    simp only [List.length_append, List.length_cons, List.length_nil]
    omega

theorem encode_ascii {s : List Char} (h : ∀ c ∈ s, c.toNat < 0x80) :
    encode s = s.map fun c ↦ UInt8.ofNat c.toNat := by
  induction s with
  | nil => rfl
  | cons c s ih =>
    have hc : ¬ 127 < c.toNat := by
      have := h c List.mem_cons_self
      omega
    have he : String.utf8EncodeChar c = [UInt8.ofNat c.toNat] := by
      simp [String.utf8EncodeChar, hc]
    rw [encode, List.flatMap_cons, he, List.map_cons, ← ih fun d hd ↦ h d (List.mem_cons_of_mem c hd)]
    rfl

theorem toNat_octet {c : Char} (h : c.toNat < 0x80) : (UInt8.ofNat c.toNat).toNat = c.toNat := by
  rw [UInt8.toNat_ofNat']
  exact Nat.mod_eq_of_lt (by omega)

theorem decode_encode {s : List Char} (h : ∀ c ∈ s, c.toNat < 0x80) : decode (encode s) = s := by
  rw [encode_ascii h]
  induction s with
  | nil => rfl
  | cons c s ih =>
    have hc := h c List.mem_cons_self
    have hlt : UInt8.ofNat c.toNat < 0x80 := by
      rw [UInt8.lt_iff_toNat_lt, toNat_octet hc]
      exact hc
    have hstart : start (UInt8.ofNat c.toNat) = ([c], none) := by
      simp [start, hlt, toNat_octet hc, Char.ofNat_toNat]
    rw [List.map_cons, decode, decodeFrom, hstart]
    exact congrArg (c :: ·) (ih fun d hd ↦ h d (List.mem_cons_of_mem c hd))

end AlarmPanel.Text.Utf8
