import AlarmPanel.Proofs.Frame.Split
import AlarmPanel.Proofs.Text.Decode

namespace AlarmPanel.Frame

def colons (lines : List String) : Nat :=
  (lines.flatMap String.toList).count ':'

theorem colons_cons_text (x : List UInt8) (lines : List String) :
    colons (text x :: lines) = x.count Reply.terminator + colons lines := by
  simp [colons, text, Text.Utf8.count_decode]

theorem colons_texts (l : List UInt8) :
    colons (texts l) + (remainder l).count Reply.terminator = l.count Reply.terminator := by
  cases hs : split? l with
  | none =>
    rw [split?_eq_none_iff_texts.mp hs, remainder_of_split?_none hs]
    exact Nat.zero_add _
  | some p =>
    have he := eq_append_of_split?_some hs
    have hlt : p.2.length < l.length := by rw [he]; simp [lineEnd]; omega
    have ih := colons_texts p.2
    have hend : (lineEnd : List UInt8).count Reply.terminator = 0 := by decide
    rw [texts_of_split?_some hs, remainder_of_split?_some hs, colons_cons_text, Nat.add_assoc, ih,
      he, List.count_append, List.count_append, hend, Nat.zero_add]
termination_by l.length

theorem texts_insert_ne {a b x : List UInt8} (hx : Reply.terminator ∈ x) :
    texts (a ++ (x ++ (b ++ lineEnd))) ≠ texts (a ++ (b ++ lineEnd)) := by
  intro h
  have hr (y : List UInt8) : remainder (y ++ lineEnd) = [] := by
    have := remainder_append_lineEnd y []
    rwa [List.append_nil] at this
  have h₁ := colons_texts (a ++ (x ++ (b ++ lineEnd)))
  have h₂ := colons_texts (a ++ (b ++ lineEnd))
  have e₁ : a ++ (x ++ (b ++ lineEnd)) = (a ++ (x ++ b)) ++ lineEnd := by simp
  have e₂ : a ++ (b ++ lineEnd) = (a ++ b) ++ lineEnd := by simp
  have hpos : 0 < x.count Reply.terminator := List.count_pos_iff.mpr hx
  rw [h, e₁, hr] at h₁
  rw [e₂, hr] at h₂
  simp only [List.count_append, List.count_nil, e₂] at h₁ h₂
  omega

theorem length_text_append (l : List UInt8) {x : List UInt8} (hx : ∀ b ∈ x, b < 0x80) :
    (text (l ++ x)).toList.length = (text l).toList.length + x.length := by
  simpa [text] using Text.Utf8.length_decode_append l hx

theorem head?_texts_ne {l x y : List UInt8} (hl : split? l = none) (hx : ∀ b ∈ x, b < 0x80)
    (hy : ∀ b ∈ y, b < 0x80) (hlt : y.length < x.length + 2) (ht : texts (l ++ y) ≠ [])
    (r : List UInt8) : (texts ((l ++ y) ++ r)).head? ≠ some (text (l ++ x)) := by
  cases hs : split? (l ++ y) with
  | none => exact absurd (split?_eq_none_iff_texts.mp hs) ht
  | some p =>
    rw [texts_append, texts_of_split?_some hs, List.cons_append, List.head?_cons]
    intro h
    have hlen := congrArg (fun s : String ↦ s.toList.length) (Option.some.inj h)
    simp only [length_text_append l hx] at hlen
    rcases List.append_eq_append_iff.mp (eq_append_of_split?_some hs) with ⟨z, hp, he⟩ | ⟨z, hp, he⟩
    · have hz : ∀ b ∈ z, b < 0x80 := fun b hb ↦ hy b (he ▸ List.mem_append_left _ hb)
      have hle := congrArg List.length he
      rw [hp, length_text_append l hz] at hlen
      simp only [List.length_append, lineEnd, List.length_cons] at hle
      omega
    · rcases z with _ | ⟨c, _ | ⟨d, z⟩⟩
      · have hle := congrArg List.length he
        rw [hp, List.append_nil] at hlen
        simp only [List.nil_append, List.length_append, lineEnd, List.length_cons] at hle
        omega
      · have hc : ∀ b ∈ [c], b < 0x80 := by
          obtain ⟨rfl, -⟩ : 13 = c ∧ 10 :: p.2 = y := by simpa [lineEnd] using he
          simp
        rw [hp, length_text_append p.1 hc, List.length_singleton] at hlen
        omega
      · obtain ⟨rfl, rfl, -⟩ : 13 = c ∧ 10 = d ∧ p.2 = z ++ y := by simpa [lineEnd] using he
        have hn := split?_eq_none_iff_texts.mp hl
        have hp' : l = p.1 ++ (lineEnd ++ z) := hp
        rw [hp', texts_append_lineEnd] at hn
        simp at hn

theorem texts_cut_ne {b o x y l l' : List UInt8} (hb : split? b = none) (ho : 0x0A ∉ o)
    (ha : ∀ c ∈ o, c < 0x80) (hc : o ++ lineEnd = x ++ y) (hx : x ≠ [])
    (hl : l.count 0x0A ≤ (texts l').length) :
    texts (b ++ (y ++ l)) ≠ texts (b ++ (o ++ (lineEnd ++ l'))) := by
  have hbo : split? (b ++ o) = none := by
    have hle := length_texts_append_le b o
    rw [split?_eq_none_iff_texts.mp hb, List.count_eq_zero.mpr ho] at hle
    exact split?_eq_none_iff_texts.mpr (List.eq_nil_of_length_eq_zero (Nat.le_zero.mp hle))
  have hr : texts (b ++ (o ++ (lineEnd ++ l'))) = text (b ++ o) :: texts l' := by
    rw [← List.append_assoc, texts_append_lineEnd, split?_eq_none_iff_texts.mp hbo,
      remainder_of_split?_none hbo, List.nil_append]
  rw [hr, ← List.append_assoc]
  intro h
  by_cases ht : texts (b ++ y) = []
  · have hle := length_texts_append_le (b ++ y) l
    rw [h, ht, List.length_nil, List.length_cons] at hle
    omega
  · have hy : ∀ c ∈ y, c < 0x80 := by
      intro c hcy
      have hmem : c ∈ o ++ lineEnd := hc ▸ List.mem_append_right x hcy
      rcases List.mem_append.mp hmem with hco | hce
      · exact ha c hco
      · obtain rfl | rfl : c = 13 ∨ c = 10 := by simpa [lineEnd] using hce
        · simp
        · simp
    have hlt : y.length < o.length + 2 := by
      have hlen := congrArg List.length hc
      have hpos := List.length_pos_iff.mpr hx
      simp only [List.length_append, lineEnd, List.length_cons, List.length_nil] at hlen
      omega
    exact head?_texts_ne hb ha hy hlt ht l (by rw [h, List.head?_cons])

end AlarmPanel.Frame
