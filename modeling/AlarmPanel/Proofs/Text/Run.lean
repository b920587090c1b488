import AlarmPanel.Text.Blank
import AlarmPanel.Text.Word

namespace AlarmPanel.Text

section

variable {α : Type} {p : α → Bool} {a b a' b' : List α}

theorem takeWhile_run (ha : ∀ c ∈ a, p c = true) (hb : ∀ c ∈ b.head?, p c = false) :
    (a ++ b).takeWhile p = a ∧ (a ++ b).dropWhile p = b := by
  rw [List.takeWhile_append_of_pos ha, List.dropWhile_append_of_pos ha]
  cases b with
  | nil => simp
  | cons c b =>
    have hc : ¬ p c = true := by simp [hb c rfl]
    simp [hc]

theorem prefix_unique (ha : ∀ c ∈ a, p c = true) (hb : ∀ c ∈ b.head?, p c = false)
    (ha' : ∀ c ∈ a', p c = true) (hb' : ∀ c ∈ b'.head?, p c = false) (h : a ++ b = a' ++ b') :
    a = a' ∧ b = b' := by
  obtain ⟨ht, hd⟩ := takeWhile_run ha hb
  obtain ⟨ht', hd'⟩ := takeWhile_run ha' hb'
  rw [h] at ht hd
  exact ⟨ht.symm.trans ht', hd.symm.trans hd'⟩

theorem suffix_unique (ha : ∀ c ∈ a, p c = true) (hb : ∀ c ∈ b.getLast?, p c = false)
    (ha' : ∀ c ∈ a', p c = true) (hb' : ∀ c ∈ b'.getLast?, p c = false) (h : b ++ a = b' ++ a') :
    b = b' ∧ a = a' := by
  have hr : a.reverse ++ b.reverse = a'.reverse ++ b'.reverse := by
    rw [← List.reverse_append, h, List.reverse_append]
  obtain ⟨h₁, h₂⟩ := prefix_unique (p := p) (by simpa using ha) (by simpa using hb)
    (by simpa using ha') (by simpa using hb') hr
  exact ⟨List.reverse_inj.mp h₂, List.reverse_inj.mp h₁⟩

theorem afterHead?_eq_some_iff [BEq α] [LawfulBEq α] : afterHead? a b = some a' ↔ b = a ++ a' := by
  induction a generalizing b with
  | nil => exact ⟨fun h ↦ Option.some.inj h, congrArg some⟩
  | cons x a ih =>
    cases b with
    | nil => simp [afterHead?]
    | cons y b =>
      by_cases hy : x = y
      · subst hy
        simp [afterHead?, ih]
      · have hy' : ¬ y = x := fun h ↦ hy h.symm
        simp [afterHead?, hy, hy']

theorem splitFirst?_eq_some_iff :
    splitFirst? p a = some (a', b') ↔ ∃ x, p x = true ∧ a = a' ++ x :: b' ∧ ∀ c ∈ a', p c = false := by
  induction a generalizing a' with
  | nil => simp [splitFirst?]
  | cons x a ih =>
    rw [splitFirst?]
    by_cases hx : p x = true
    · rw [if_pos hx]
      constructor
      · intro h
        cases h
        exact ⟨x, hx, rfl, by simp⟩
      · rintro ⟨y, -, h, hn⟩
        cases a' with
        | nil => obtain ⟨-, rfl⟩ := List.cons.inj h; rfl
        | cons z a' =>
          obtain ⟨rfl, -⟩ := List.cons.inj h
          cases hx.symm.trans (hn x List.mem_cons_self)
    · rw [if_neg hx, Option.map_eq_some_iff]
      constructor
      · rintro ⟨⟨l, r⟩, h, heq⟩
        cases heq
        obtain ⟨y, hy, rfl, hn⟩ := ih.mp h
        refine ⟨y, hy, rfl, List.forall_mem_cons.mpr ⟨?_, hn⟩⟩
        simpa using hx
      · rintro ⟨y, hy, h, hn⟩
        cases a' with
        | nil =>
          obtain ⟨rfl, -⟩ := List.cons.inj h
          exact absurd hy hx
        | cons z a' =>
          obtain ⟨rfl, hl⟩ := List.cons.inj h
          exact ⟨(a', b'), ih.mpr ⟨y, hy, hl, (List.forall_mem_cons.mp hn).2⟩, rfl⟩

theorem getLast?_append_of_ne_nil (ha : a ≠ []) (b : List α) : (b ++ a).getLast? = a.getLast? := by
  rw [List.getLast?_append, List.getLast?_eq_some_getLast ha, Option.some_or]

theorem head_run {q : α → Prop} (hn : a ≠ []) (h : ∀ c ∈ a, q c) (b : List α) :
    ∀ c ∈ (a ++ b).head?, q c := by
  cases a with
  | nil => exact absurd rfl hn
  | cons x a =>
    intro c hc
    obtain rfl := Option.some.inj hc
    exact h x List.mem_cons_self

theorem last_run {q : α → Prop} (hn : a ≠ []) (h : ∀ c ∈ a, q c) (b : List α) :
    ∀ c ∈ (b ++ a).getLast?, q c := by
  intro c hc
  rw [getLast?_append_of_ne_nil hn] at hc
  exact h c (List.mem_of_getLast? hc)

theorem dropEndWhile_append (p : α → Bool) (ha : ∀ c ∈ a, p c = true) (b : List α) :
    dropEndWhile p (b ++ a) = dropEndWhile p b := by
  rw [dropEndWhile_eq_reverse, dropEndWhile_eq_reverse, List.reverse_append,
    List.dropWhile_append_of_pos (by simpa using ha)]

theorem dropEndWhile_append_of_last (h : ∀ c ∈ b.getLast?, p c = false) (a : List α) :
    dropEndWhile p (b ++ a) = b ++ dropEndWhile p a := by
  have hb : b.reverse.dropWhile p = b.reverse :=
    (takeWhile_run (a := []) (by simp) (by simpa using h)).2
  rw [dropEndWhile_eq_reverse, dropEndWhile_eq_reverse, List.reverse_append, List.dropWhile_append, hb]
  cases a.reverse.dropWhile p with
  | nil => simp
  | cons x l => simp

theorem dropEndWhile_of_last (h : ∀ c ∈ b.getLast?, p c = false) : dropEndWhile p b = b := by
  simpa [dropEndWhile] using dropEndWhile_append_of_last h []

theorem last_dropEndWhile (p : α → Bool) (l : List α) :
    ∀ c ∈ (dropEndWhile p l).getLast?, p c = false := by
  intro c hc
  rw [dropEndWhile_eq_reverse, List.getLast?_reverse] at hc
  have h := List.head?_dropWhile_not p l.reverse
  rw [Option.mem_def.mp hc] at h
  simpa using h

theorem exists_dropEndWhile (p : α → Bool) (l : List α) :
    ∃ r, (∀ c ∈ r, p c = true) ∧ l = dropEndWhile p l ++ r := by
  refine ⟨(l.reverse.takeWhile p).reverse, ?_, ?_⟩
  · intro c hc
    exact List.all_eq_true.mp List.all_takeWhile c (List.mem_reverse.mp hc)
  · rw [dropEndWhile_eq_reverse, ← List.reverse_append, List.takeWhile_append_dropWhile,
      List.reverse_reverse]

end

def Blanks (w : List Char) : Prop :=
  ∀ c ∈ w, isBlank c = true

structure BlankRun (w : List Char) : Prop where
  ne_nil : w ≠ []
  blanks : Blanks w

structure DigitRun (ds : List Char) : Prop where
  ne_nil : ds ≠ []
  digits : ∀ c ∈ ds, isDecimalDigit c = true

variable {s w w' ds : List Char} {c : Char}

theorem blanks_nil : Blanks [] := by
  intro c hc
  cases hc

theorem Blanks.append (h : Blanks w) (h' : Blanks w') : Blanks (w ++ w') := by
  intro c hc
  rcases List.mem_append.mp hc with hc | hc
  · exact h c hc
  · exact h' c hc

theorem BlankRun.append (h : BlankRun w) (h' : Blanks w') : BlankRun (w ++ w') :=
  ⟨by simp [h.ne_nil], h.blanks.append h'⟩

theorem Blanks.append_run (h : Blanks w) (h' : BlankRun w') : BlankRun (w ++ w') :=
  ⟨by simp [h'.ne_nil], h.append h'.blanks⟩

theorem blanks_iff_all : Blanks w ↔ w.all isBlank = true := List.all_eq_true.symm

theorem visible_of_all (h : (s.all fun c ↦ !isBlank c) = true) : ∀ c ∈ s, isBlank c = false := by
  intro c hc
  simpa using List.all_eq_true.mp h c hc

theorem trim_append (h : Blanks w) (s : List Char) (h' : Blanks w') :
    trim (w ++ (s ++ w')) = trim s := by
  rw [trim, trimBy, trim, trimBy, List.dropWhile_append_of_pos h, List.dropWhile_append]
  split
  case isFalse => exact dropEndWhile_append isBlank h' _
  case isTrue hs =>
    have hw : w'.dropWhile isBlank = [] := by
      have hd := (takeWhile_run (b := []) h' (by simp)).2
      rwa [List.append_nil] at hd
    rw [hw, List.isEmpty_iff.mp hs]

theorem exists_trim (s : List Char) : ∃ l r, Blanks l ∧ Blanks r ∧ s = l ++ (trim s ++ r) := by
  obtain ⟨r, hr, hs⟩ := exists_dropEndWhile isBlank (s.dropWhile isBlank)
  refine ⟨s.takeWhile isBlank, r, List.all_eq_true.mp List.all_takeWhile, hr, ?_⟩
  rw [trim, trimBy, ← hs, List.takeWhile_append_dropWhile]

theorem trim_eq_self (hh : ∀ c ∈ s.head?, isBlank c = false)
    (hl : ∀ c ∈ s.getLast?, isBlank c = false) : trim s = s := by
  have hd : s.dropWhile isBlank = s := (takeWhile_run (a := []) (by simp) hh).2
  rw [trim, trimBy, hd, dropEndWhile_of_last hl]

theorem isDigit_iff : c.isDigit = true ↔ 48 ≤ c.toNat ∧ c.toNat ≤ 57 := by
  simp only [Char.isDigit, Bool.and_eq_true, decide_eq_true_eq, ge_iff_le, UInt32.le_iff_toNat_le]
  rfl

def blankCodes : List Nat :=
  [9, 10, 11, 12, 13, 0x20, 0x85, 0xA0, 0x1680, 0x2000, 0x2001, 0x2002, 0x2003, 0x2004, 0x2005, 0x2006,
    0x2007, 0x2008, 0x2009, 0x200A, 0x2028, 0x2029, 0x202F, 0x205F, 0x3000]

theorem mem_blankCodes (h : isBlank c = true) : c.toNat ∈ blankCodes := by
  simp only [isBlank, Bool.or_eq_true, Bool.and_eq_true, decide_eq_true_eq, beq_iff_eq] at h
  simp only [blankCodes, List.mem_cons, List.not_mem_nil, or_false]
  omega

theorem isBlank_of_isDecimalDigit (h : isDecimalDigit c = true) : isBlank c = false := by
  cases hb : isBlank c with
  | false => rfl
  | true =>
    have hall : ∀ n ∈ blankCodes, inRanges digitRanges n = false ∧ ¬ (48 ≤ n ∧ n ≤ 57) := by decide
    obtain ⟨hr, hd⟩ := hall c.toNat (mem_blankCodes hb)
    simp only [isDecimalDigit, hr, Bool.and_false, Bool.or_false, isDigit_iff] at h
    exact absurd h hd

theorem isDecimalDigit_of_isBlank (h : isBlank c = true) : isDecimalDigit c = false := by
  cases hd : isDecimalDigit c with
  | false => rfl
  | true => cases h.symm.trans (isBlank_of_isDecimalDigit hd)

theorem BlankRun.head_not_digit (h : BlankRun w) (s : List Char) :
    ∀ c ∈ (w ++ s).head?, isDecimalDigit c = false :=
  head_run h.ne_nil (fun c hc ↦ isDecimalDigit_of_isBlank (h.blanks c hc)) s

theorem BlankRun.last_not_digit (h : BlankRun w) (s : List Char) :
    ∀ c ∈ (s ++ w).getLast?, isDecimalDigit c = false :=
  last_run h.ne_nil (fun c hc ↦ isDecimalDigit_of_isBlank (h.blanks c hc)) s

theorem Blanks.head_not_digit (h : Blanks w) : ∀ c ∈ w.head?, isDecimalDigit c = false := by
  intro c hc
  exact isDecimalDigit_of_isBlank (h c (List.mem_of_mem_head? hc))

theorem DigitRun.head_not_blank (h : DigitRun ds) (s : List Char) :
    ∀ c ∈ (ds ++ s).head?, isBlank c = false :=
  head_run h.ne_nil (fun c hc ↦ isBlank_of_isDecimalDigit (h.digits c hc)) s

theorem DigitRun.last_not_blank (h : DigitRun ds) (s : List Char) :
    ∀ c ∈ (s ++ ds).getLast?, isBlank c = false :=
  last_run h.ne_nil (fun c hc ↦ isBlank_of_isDecimalDigit (h.digits c hc)) s

theorem toLower_cases (c : Char) :
    ¬ (65 ≤ c.toNat ∧ c.toNat ≤ 90) ∧ c.toLower = c ∨
      (65 ≤ c.toNat ∧ c.toNat ≤ 90) ∧ c.toLower.toNat = c.toNat + 32 := by
  have hiff : (c.val ≥ 'A'.val ∧ c.val ≤ 'Z'.val) ↔ 65 ≤ c.toNat ∧ c.toNat ≤ 90 := by
    simp only [ge_iff_le, UInt32.le_iff_toNat_le]
    rfl
  unfold Char.toLower
  split
  case isFalse h => exact .inl ⟨fun hn ↦ h (hiff.mpr hn), rfl⟩
  case isTrue h =>
    have hn := hiff.mp h
    refine .inr ⟨hn, ?_⟩
    change (c.val + 32).toNat = c.toNat + 32
    rw [UInt32.toNat_add]
    change (c.toNat + 32) % 2 ^ 32 = c.toNat + 32
    omega

theorem isBlank_of_isLetter {n : Nat} (h : 65 ≤ n) (h' : n ≤ 122) (hc : c.toNat = n) :
    isBlank c = false := by
  have hb : ¬ isBlank c = true := by
    simp only [isBlank, Bool.or_eq_true, Bool.and_eq_true, decide_eq_true_eq, beq_iff_eq]
    omega
  simpa using hb

theorem isBlank_toLower (c : Char) : isBlank c.toLower = isBlank c := by
  rcases toLower_cases c with ⟨-, h⟩ | ⟨⟨h₁, h₂⟩, h⟩
  · rw [h]
  · rw [isBlank_of_isLetter (by omega) (by omega) h,
      isBlank_of_isLetter (n := c.toNat) (by omega) (by omega) rfl]

theorem isDecimalDigit_of_isLetter {n : Nat} (h : 65 ≤ n) (h' : n ≤ 122) (hc : c.toNat = n) :
    isDecimalDigit c = false := by
  have hd : ¬ isDecimalDigit c = true := by
    simp only [isDecimalDigit, Bool.or_eq_true, Bool.and_eq_true, decide_eq_true_eq, isDigit_iff]
    omega
  simpa using hd

theorem isDecimalDigit_toLower (c : Char) : isDecimalDigit c.toLower = isDecimalDigit c := by
  rcases toLower_cases c with ⟨-, h⟩ | ⟨⟨h₁, h₂⟩, h⟩
  · rw [h]
  · rw [isDecimalDigit_of_isLetter (by omega) (by omega) h,
      isDecimalDigit_of_isLetter (n := c.toNat) (by omega) (by omega) rfl]

end AlarmPanel.Text
