import AlarmPanel.Frame.Assembler

namespace AlarmPanel.Frame

variable {a b l x y r : List UInt8} {capacity : Nat}

def texts (l : List UInt8) : List String :=
  (splitAll l).1.map text

/-- What comes after the last line end of a stream. -/
def remainder (l : List UInt8) : List UInt8 :=
  (splitAll l).2

@[simp] theorem texts_nil : texts [] = [] := rfl

@[simp] theorem remainder_nil : remainder [] = [] := rfl

theorem splitAll_of_split?_none (h : split? l = none) : splitAll l = ([], l) := by
  fun_induction split? l with
  | case1 => rfl
  | case2 => simp at h
  | case3 b l hb ih =>
    have hl : split? l = none := by simpa using h
    rw [splitAll, ih hl]
    exact hb

theorem splitAll_of_split?_some (h : split? l = some (x, r)) :
    splitAll l = (x :: (splitAll r).1, (splitAll r).2) := by
  fun_induction split? l generalizing x with
  | case1 => simp at h
  | case2 l =>
    obtain ⟨rfl, rfl⟩ : [] = x ∧ l = r := by simpa using h
    rfl
  | case3 b l hb ih =>
    obtain ⟨⟨y, s⟩, hs, he⟩ := Option.map_eq_some_iff.mp h
    obtain ⟨rfl, rfl⟩ : b :: y = x ∧ s = r := by simpa using he
    rw [splitAll, ih hs]
    exact hb

theorem split?_eq_none_iff : split? l = none ↔ (splitAll l).1 = [] := by
  constructor
  · intro h
    rw [splitAll_of_split?_none h]
  · intro h
    cases hs : split? l with
    | none => rfl
    | some p => rw [splitAll_of_split?_some hs] at h; simp at h

theorem split?_eq_none_iff_texts : split? l = none ↔ texts l = [] := by
  simp [split?_eq_none_iff, texts]

theorem texts_of_split?_some (h : split? l = some (x, r)) : texts l = text x :: texts r := by
  simp [texts, splitAll_of_split?_some h]

theorem remainder_of_split?_some (h : split? l = some (x, r)) : remainder l = remainder r := by
  simp [remainder, splitAll_of_split?_some h]

theorem remainder_of_split?_none (h : split? l = none) : remainder l = l := by
  simp [remainder, splitAll_of_split?_none h]

theorem eq_append_of_split?_some (h : split? l = some (x, r)) : l = x ++ (lineEnd ++ r) := by
  fun_induction split? l generalizing x with
  | case1 => simp at h
  | case2 l =>
    obtain ⟨rfl, rfl⟩ : [] = x ∧ l = r := by simpa using h
    rfl
  | case3 b l hb ih =>
    obtain ⟨⟨y, s⟩, hs, he⟩ := Option.map_eq_some_iff.mp h
    obtain ⟨rfl, rfl⟩ : b :: y = x ∧ s = r := by simpa using he
    rw [List.cons_append, ← ih hs]

theorem split?_fst (h : split? l = some (x, r)) : split? x = none := by
  fun_induction split? l generalizing x with
  | case1 => simp at h
  | case2 l =>
    obtain ⟨rfl, -⟩ : [] = x ∧ l = r := by simpa using h
    rfl
  | case3 b l hb ih =>
    obtain ⟨⟨y, s⟩, hs, he⟩ := Option.map_eq_some_iff.mp h
    obtain ⟨rfl, rfl⟩ : b :: y = x ∧ s = r := by simpa using he
    rw [split?, ih hs]
    · rfl
    · intro l' hcr hy
      rw [eq_append_of_split?_some hs, hy, List.cons_append] at hb
      exact hb _ hcr rfl

theorem split?_remainder (l : List UInt8) : split? (remainder l) = none := by
  rw [remainder]
  fun_induction splitAll l with
  | case1 => rfl
  | case2 l ih => exact ih
  | case3 b l hb rest hs ih =>
    rw [hs] at ih
    rw [split?, ih]
    · rfl
    · intro l' hl hr
      have hn : split? l = none := split?_eq_none_iff.mpr (by rw [hs])
      have hl' : l = rest := by simpa [splitAll_of_split?_none hn] using congrArg Prod.snd hs
      exact hb l' hl (hl'.trans hr)
  | case4 b l hb line lines rest hs ih => rw [hs] at ih; exact ih

theorem splitAll_append (a b : List UInt8) :
    splitAll (a ++ b) =
      ((splitAll a).1 ++ (splitAll (remainder a ++ b)).1, remainder (remainder a ++ b)) := by
  unfold remainder
  fun_induction splitAll a with
  | case1 => rfl
  | case2 l ih => simp only [List.cons_append, splitAll, ih]
  | case3 c l hc rest hs ih =>
    have hn : split? l = none := split?_eq_none_iff.mpr (by rw [hs])
    have hl : l = rest := by simpa [splitAll_of_split?_none hn] using congrArg Prod.snd hs
    rw [hl]
    rfl
  | case4 c l hc line lines rest hs ih =>
    have hne : ∀ l', c = 13 → l ++ b = 10 :: l' → False := by
      intro l' hcr hl
      cases l with
      | nil => simp [splitAll] at hs
      | cons d l =>
        obtain ⟨rfl, -⟩ : d = 10 ∧ l ++ b = l' := by simpa using hl
        exact hc l hcr rfl
    rw [List.cons_append, splitAll, ih, hs]
    · rfl
    · exact hne

theorem texts_append (a b : List UInt8) : texts (a ++ b) = texts a ++ texts (remainder a ++ b) := by
  simp [texts, splitAll_append a b]

theorem remainder_append (a b : List UInt8) :
    remainder (a ++ b) = remainder (remainder a ++ b) := by
  rw [remainder, splitAll_append]

theorem texts_append_of_remainder_nil (h : remainder a = []) (b : List UInt8) :
    texts (a ++ b) = texts a ++ texts b := by
  rw [texts_append, h, List.nil_append]

theorem remainder_append_of_remainder_nil (h : remainder a = []) (b : List UInt8) :
    remainder (a ++ b) = remainder b := by
  rw [remainder_append, h, List.nil_append]

theorem split?_append_lineEnd (h : split? x = none) (r : List UInt8) :
    split? (x ++ (lineEnd ++ r)) = some (x, r) := by
  fun_induction split? x with
  | case1 => rfl
  | case2 => simp at h
  | case3 b l hb ih =>
    have hl : split? l = none := by simpa using h
    have hne : ∀ l', b = 13 → l ++ (lineEnd ++ r) = 10 :: l' → False := by
      intro l' hcr he
      cases l with
      | nil => simp [lineEnd] at he
      | cons d l =>
        obtain ⟨rfl, -⟩ : d = 10 ∧ l ++ (lineEnd ++ r) = l' := by simpa using he
        exact hb l hcr rfl
    rw [List.cons_append, split?, ih hl]
    · rfl
    · exact hne

theorem texts_append_lineEnd (a b : List UInt8) :
    texts (a ++ (lineEnd ++ b)) = texts a ++ text (remainder a) :: texts b := by
  rw [texts_append, texts_of_split?_some (split?_append_lineEnd (split?_remainder a) b)]

theorem remainder_append_lineEnd (a b : List UInt8) :
    remainder (a ++ (lineEnd ++ b)) = remainder b := by
  rw [remainder_append, remainder_of_split?_some (split?_append_lineEnd (split?_remainder a) b)]

theorem length_texts_cons {c : UInt8} (h : ∀ l', c = 13 → l = 10 :: l' → False) :
    (texts (c :: l)).length = (texts l).length := by
  rw [texts, texts, splitAll]
  · split <;> simp_all
  · exact h

theorem length_texts_le_count (l : List UInt8) : (texts l).length ≤ l.count 10 := by
  fun_induction splitAll l with
  | case1 => simp
  | case2 l ih =>
    have h : texts (13 :: 10 :: l) = text [] :: texts l := rfl
    simpa [h] using ih
  | case3 c l hc rest hs ih | case4 c l hc line lines rest hs ih =>
    rw [length_texts_cons hc]
    exact Nat.le_trans ih List.count_le_count_cons

theorem length_texts_append_le (a b : List UInt8) :
    (texts (a ++ b)).length ≤ (texts a).length + b.count 10 := by
  have key (x : List UInt8) (hx : split? x = none) : (texts (x ++ b)).length ≤ b.count 10 := by
    induction x with
    | nil => exact length_texts_le_count b
    | cons c x ih =>
      by_cases hc : ∀ l', c = 13 → x ++ b = 10 :: l' → False
      · rw [List.cons_append, length_texts_cons hc]
        have hx' : split? x = none := by
          rw [split?] at hx
          · simpa using hx
          · exact fun l' hcr he ↦ hc (l' ++ b) hcr (by rw [he, List.cons_append])
        exact ih hx'
      · obtain ⟨l', rfl, he⟩ : ∃ l', c = 13 ∧ x ++ b = 10 :: l' := by simpa using hc
        cases x with
        | nil =>
          obtain rfl : b = 10 :: l' := he
          have h : texts (13 :: 10 :: l') = text [] :: texts l' := rfl
          simpa [h] using length_texts_le_count l'
        | cons d x =>
          obtain ⟨rfl, -⟩ : d = 10 ∧ x ++ b = l' := by simpa using he
          simp [split?] at hx
  rw [texts_append, List.length_append]
  exact Nat.add_le_add_left (key _ (split?_remainder a)) _

/-- No line of the stream, however it is cut, outgrows a buffer of the given capacity. -/
def Fits (capacity : Nat) (l : List UInt8) : Prop :=
  (∀ x ∈ (splitAll l).1, x.length < capacity) ∧ (remainder l).length ≤ capacity

instance : DecidablePred (Fits capacity) := fun l ↦
  inferInstanceAs (Decidable ((∀ x ∈ (splitAll l).1, x.length < capacity) ∧ _))

theorem Fits.of_remainder_nil (h : Fits capacity (a ++ b)) (ha : remainder a = []) :
    Fits capacity b := by
  obtain ⟨hl, hr⟩ := h
  rw [splitAll_append, ha, List.nil_append] at hl
  rw [remainder_append, ha, List.nil_append] at hr
  exact ⟨fun x hx ↦ hl x (List.mem_append_right _ hx), hr⟩

theorem length_le_of_split?_append (hx : split? x = none) (h : split? (x ++ b) = some (l, r)) :
    x.length ≤ l.length + 1 := by
  have he := eq_append_of_split?_some h
  rcases Nat.lt_or_ge (l.length + 1) x.length with hlt | hge
  · have hp : l ++ lineEnd <+: x := by
      have hpre : l ++ lineEnd <+: x ++ b := ⟨r, by rw [he, List.append_assoc]⟩
      exact List.prefix_of_prefix_length_le hpre (List.prefix_append x b) (by simp [lineEnd]; omega)
    obtain ⟨y, rfl⟩ := hp
    have hn := (split?_eq_none_iff_texts.mp hx).symm
    rw [List.append_assoc, texts_append_lineEnd] at hn
    simp at hn
  · exact hge

theorem Fits.length_le (h : Fits capacity (x ++ b)) (hx : split? x = none) :
    x.length ≤ capacity := by
  cases hs : split? (x ++ b) with
  | none =>
    have hr := h.2
    rw [remainder_of_split?_none hs, List.length_append] at hr
    omega
  | some p =>
    have hl := h.1 p.1 (by rw [splitAll_of_split?_some hs]; exact List.mem_cons_self)
    have := length_le_of_split?_append hx hs
    omega

theorem exists_append_remainder (l : List UInt8) :
    ∃ done, l = done ++ remainder l ∧ remainder done = [] ∧ texts done = texts l := by
  cases hs : split? l with
  | none =>
    refine ⟨[], ?_, rfl, ?_⟩
    · rw [remainder_of_split?_none hs, List.nil_append]
    · rw [split?_eq_none_iff_texts.mp hs, texts_nil]
  | some p =>
    have he := eq_append_of_split?_some hs
    have hlt : p.2.length < l.length := by rw [he]; simp [lineEnd]; omega
    obtain ⟨done, hd, hr, ht⟩ := exists_append_remainder p.2
    refine ⟨p.1 ++ (lineEnd ++ done), ?_, ?_, ?_⟩
    · rw [remainder_of_split?_some hs, List.append_assoc, List.append_assoc, ← hd, ← he]
    · rw [remainder_append_lineEnd, hr]
    · have hn := split?_fst hs
      rw [texts_of_split?_some hs, texts_append_lineEnd, split?_eq_none_iff_texts.mp hn,
        remainder_of_split?_none hn, ht, List.nil_append]
termination_by l.length

theorem eq_nil_of_texts (ht : texts l = []) (hr : remainder l = []) : l = [] := by
  rw [← hr, remainder_of_split?_none (split?_eq_none_iff_texts.mpr ht)]

/-- Of two ways to begin a stream with complete lines, those with the same texts are the same. -/
theorem done_unique {d d' s s' : List UInt8} (h : d ++ s = d' ++ s') (hd : remainder d = [])
    (hd' : remainder d' = []) (ht : texts d = texts d') : d = d' := by
  rcases List.append_eq_append_iff.mp h with ⟨x, rfl, -⟩ | ⟨x, rfl, -⟩
  · rw [texts_append_of_remainder_nil hd] at ht
    rw [remainder_append_of_remainder_nil hd] at hd'
    have hx : x = [] := eq_nil_of_texts (by simpa using ht) hd'
    rw [hx, List.append_nil]
  · rw [texts_append_of_remainder_nil hd'] at ht
    rw [remainder_append_of_remainder_nil hd'] at hd
    have hx : x = [] := eq_nil_of_texts (by simpa using ht) hd
    rw [hx, List.append_nil]

theorem Fits.of_append (h : Fits capacity (a ++ b)) : Fits capacity a := by
  obtain ⟨done, hd, hr, -⟩ := exists_append_remainder a
  have hs : Fits capacity (remainder a ++ b) := by
    rw [hd, List.append_assoc] at h
    exact h.of_remainder_nil hr
  refine ⟨fun x hx ↦ h.1 x ?_, hs.length_le (split?_remainder a)⟩
  rw [splitAll_append]
  exact List.mem_append_left _ hx

theorem split?_eq_none_iff_not_contains : split? l = none ↔ ¬ lineEnd <:+: l := by
  constructor
  · rintro h ⟨p, q, rfl⟩
    rw [split?_eq_none_iff_texts, List.append_assoc, texts_append_lineEnd] at h
    simp at h
  · intro h
    cases hs : split? l with
    | none => rfl
    | some p =>
      have he := eq_append_of_split?_some hs
      exact absurd ⟨p.1, p.2, by rw [he, List.append_assoc]⟩ h

/-- A stream is its lines, each with a line end, and a rest; neither holds another line end. -/
structure IsSplit (lines : List (List UInt8)) (rest stream : List UInt8) : Prop where
  eq : stream = lines.flatMap (· ++ lineEnd) ++ rest
  lines_free : ∀ x ∈ lines, ¬ lineEnd <:+: x
  rest_free : ¬ lineEnd <:+: rest

theorem IsSplit.splitAll_eq {lines : List (List UInt8)} (h : IsSplit lines r l) :
    splitAll l = (lines, r) := by
  obtain ⟨rfl, hl, hr⟩ := h
  induction lines with
  | nil => exact splitAll_of_split?_none (split?_eq_none_iff_not_contains.mpr hr)
  | cons x lines ih =>
    have hx : split? x = none := split?_eq_none_iff_not_contains.mpr (hl x List.mem_cons_self)
    have hs := split?_append_lineEnd hx (lines.flatMap (· ++ lineEnd) ++ r)
    have ih' := ih fun y hy ↦ hl y (List.mem_cons_of_mem x hy)
    simp only [List.flatMap_cons, List.append_assoc]
    rw [splitAll_of_split?_some hs, ih']

theorem isSplit_splitAll (l : List UInt8) : IsSplit (splitAll l).1 (splitAll l).2 l := by
  cases hs : split? l with
  | none =>
    rw [splitAll_of_split?_none hs]
    exact ⟨rfl, by simp, split?_eq_none_iff_not_contains.mp hs⟩
  | some p =>
    have he := eq_append_of_split?_some hs
    have hlt : p.2.length < l.length := by rw [he]; simp [lineEnd]; omega
    obtain ⟨heq, hl, hr⟩ := isSplit_splitAll p.2
    rw [splitAll_of_split?_some hs]
    refine ⟨?_, ?_, hr⟩
    · rw [List.flatMap_cons, List.append_assoc, List.append_assoc, ← heq]
      exact he
    · intro x hx
      rcases List.mem_cons.mp hx with rfl | hx
      · exact split?_eq_none_iff_not_contains.mp (split?_fst hs)
      · exact hl x hx
termination_by l.length

end AlarmPanel.Frame

namespace AlarmPanel.Assembler

variable {a : Assembler} {octets rest : List UInt8}

theorem takeAll_eq (a : Assembler) :
    a.takeAll = (Frame.texts a.buffer, { a with buffer := Frame.remainder a.buffer }) := rfl

theorem capacity_push (a : Assembler) (octets : List UInt8) :
    (a.push octets).capacity = a.capacity := by
  unfold push settle
  split <;> rfl

theorem push_of_length_le (h : Frame.split? (a.buffer ++ octets) = none →
    (a.buffer ++ octets).length ≤ a.capacity) :
    a.push octets = { a with buffer := a.buffer ++ octets } := by
  unfold push settle
  rw [if_neg]
  rintro ⟨hl, hs⟩
  exact Nat.not_lt.mpr (h hs) hl

theorem push_of_fits (h : Frame.Fits a.capacity (a.buffer ++ (octets ++ rest))) :
    a.push octets = { a with buffer := a.buffer ++ octets } := by
  rw [← List.append_assoc] at h
  exact push_of_length_le h.length_le

theorem push_of_overflow (hs : Frame.split? (a.buffer ++ octets) = none)
    (hl : a.capacity < (a.buffer ++ octets).length) :
    a.push octets = { a with buffer := [] } := by
  unfold push settle
  rw [if_pos ⟨hl, hs⟩]

end AlarmPanel.Assembler
