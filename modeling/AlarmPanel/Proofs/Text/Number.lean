import Mathlib.Algebra.Group.Int.Defs
import Mathlib.Algebra.Group.Nat.Defs
import AlarmPanel.Numeral
import AlarmPanel.Proofs.Text.Run

namespace AlarmPanel

open Text

structure Denotes (ds : List Char) (n : UInt32) : Prop where
  ne_nil : ds ≠ []
  digits : ∀ c ∈ ds, c.isDigit = true
  value : Nat.ofDigitChars 10 ds 0 = n.toNat

namespace Numeral

variable {ds ds' : List Char} {c : Char} {n w : Nat}

theorem ofDigitChars_inj (hd : ∀ c ∈ ds, c.isDigit = true) (hd' : ∀ c ∈ ds', c.isDigit = true)
    (hl : ds.length = ds'.length) {i j : Nat}
    (h : Nat.ofDigitChars 10 ds i = Nat.ofDigitChars 10 ds' j) : i = j ∧ ds = ds' := by
  induction ds generalizing ds' i j with
  | nil =>
    obtain rfl := List.length_eq_zero_iff.mp hl.symm
    exact ⟨h, rfl⟩
  | cons c ds ih =>
    cases ds' with
    | nil => cases hl
    | cons c' ds' =>
      rw [Nat.ofDigitChars_cons, Nat.ofDigitChars_cons] at h
      obtain ⟨hn, hs⟩ := ih (fun b hb ↦ hd b (List.mem_cons_of_mem _ hb))
        (fun b hb ↦ hd' b (List.mem_cons_of_mem _ hb)) (Nat.succ.inj hl) h
      have h₁ := isDigit_iff.mp (hd c List.mem_cons_self)
      have h₂ := isDigit_iff.mp (hd' c' List.mem_cons_self)
      have h0 : '0'.toNat = 48 := rfl
      have hc : c = c' := Char.toNat_inj.mp (by omega)
      exact ⟨by omega, by rw [hc, hs]⟩

theorem ofDigitChars_lt (hd : ∀ c ∈ ds, c.isDigit = true) (init : Nat) :
    Nat.ofDigitChars 10 ds init < (init + 1) * 10 ^ ds.length := by
  induction ds generalizing init with
  | nil => simp
  | cons c ds ih =>
    have hc := isDigit_iff.mp (hd c List.mem_cons_self)
    have h0 : '0'.toNat = 48 := rfl
    have h := ih (fun b hb ↦ hd b (List.mem_cons_of_mem _ hb)) (10 * init + (c.toNat - '0'.toNat))
    have hle : 10 * init + (c.toNat - '0'.toNat) + 1 ≤ (init + 1) * 10 := by omega
    rw [Nat.ofDigitChars_cons, List.length_cons, Nat.pow_succ', ← Nat.mul_assoc]
    exact Nat.lt_of_lt_of_le h (Nat.mul_le_mul_right _ hle)

theorem ofDigitChars_zeros (k : Nat) : Nat.ofDigitChars 10 (List.replicate k '0') 0 = 0 := by
  induction k with
  | zero => rfl
  | succ k ih =>
    rw [List.replicate_succ, Nat.ofDigitChars_cons]
    exact ih

theorem value_padded (w n : Nat) : Nat.ofDigitChars 10 (padded w n) 0 = n := by
  rw [padded, Nat.ofDigitChars_append, ofDigitChars_zeros]
  exact Nat.ofDigitChars_toDigits (by omega) (by omega)

theorem digits_decimal (n : Nat) : ∀ c ∈ decimal n, c.isDigit = true :=
  fun _ hc ↦ Nat.isDigit_of_mem_toDigits (by omega) (by omega) hc

theorem digits_padded (w n : Nat) : ∀ c ∈ padded w n, c.isDigit = true := by
  intro c hc
  rcases List.mem_append.mp hc with hc | hc
  · obtain rfl := List.eq_of_mem_replicate hc
    decide
  · exact digits_decimal n c hc

theorem length_padded (hw : 0 < w) (hn : n < 10 ^ w) : (padded w n).length = w := by
  have hl : (decimal n).length ≤ w := (Nat.length_toDigits_le_iff (by omega) hw).mpr hn
  rw [padded, List.length_append, List.length_replicate]
  omega

theorem padded_value (hd : ∀ c ∈ ds, c.isDigit = true) (hw : ds.length = w) (hp : 0 < w)
    (hn : Nat.ofDigitChars 10 ds 0 < 10 ^ w) : padded w (Nat.ofDigitChars 10 ds 0) = ds :=
  (ofDigitChars_inj (digits_padded _ _) hd ((length_padded hp hn).trans hw.symm)
    (value_padded _ _)).2

theorem digit?_ten (c : Char) : digit? 10 c = if c.isDigit then some (c.toNat - 48) else none := by
  unfold digit?
  dsimp only
  by_cases hc : c.isDigit = true
  · have hr := isDigit_iff.mp hc
    rw [if_pos hc, if_pos hr, if_pos (by omega)]
  · have hn : ¬ (48 ≤ c.toNat ∧ c.toNat ≤ 57) := fun h ↦ hc (isDigit_iff.mpr h)
    rw [if_neg hc, if_neg hn]
    refine if_neg ?_
    split
    · omega
    · split <;> omega

def valueFrom? (radix acc : Nat) : List Char → Option Nat
  | [] => some acc
  | c :: s => (digit? radix c).bind fun d ↦ valueFrom? radix (acc * radix + d) s

theorem le_of_valueFrom? {radix acc k : Nat} (hr : 0 < radix)
    (h : valueFrom? radix acc ds = some k) : acc ≤ k := by
  induction ds generalizing acc with
  | nil => exact Nat.le_of_eq (Option.some.inj h)
  | cons c ds ih =>
    obtain ⟨d, -, hd⟩ := Option.bind_eq_some_iff.mp h
    have hacc : acc ≤ acc * radix := Nat.le_mul_of_pos_right acc hr
    exact Nat.le_trans hacc (Nat.le_trans (Nat.le_add_right _ d) (ih hd))

theorem valueFrom?_ten_eq_some_iff {acc k : Nat} : valueFrom? 10 acc ds = some k ↔
    (∀ c ∈ ds, c.isDigit = true) ∧ k = Nat.ofDigitChars 10 ds acc := by
  induction ds generalizing acc with
  | nil =>
    rw [valueFrom?, Nat.ofDigitChars_nil, Option.some.injEq, eq_comm]
    exact ⟨fun h ↦ ⟨by simp, h⟩, And.right⟩
  | cons c ds ih =>
    rw [valueFrom?, digit?_ten, Nat.ofDigitChars_cons]
    by_cases hc : c.isDigit = true
    · rw [if_pos hc, Option.bind_some, ih, Nat.mul_comm]
      simp [hc]
    · rw [if_neg hc, Option.bind_none]
      simp [hc]

/-- Digits are read to what they denote on the side of the sign, if that is within the bounds. No
prefix of them denotes more. -/
theorem readFrom_eq_ok_iff {b : Bounds} {radix acc : Nat} {sign m : Int} (hr : 0 < radix)
    (hlo : b.lo ≤ 0) (hhi : 0 ≤ b.hi) (hs : sign = 1 ∨ sign = -1)
    (ha : b.lo ≤ sign * acc ∧ sign * acc ≤ b.hi) :
    readFrom b radix sign (sign * acc) ds = .ok m ↔
      (∃ k : Nat, valueFrom? radix acc ds = some k ∧ m = sign * k) ∧ b.lo ≤ m ∧ m ≤ b.hi := by
  induction ds generalizing acc with
  | nil =>
    rw [readFrom, valueFrom?]
    constructor
    · intro h
      cases h
      exact ⟨⟨acc, rfl, rfl⟩, ha⟩
    · rintro ⟨⟨k, hk, rfl⟩, -⟩
      cases hk
      rfl
  | cons c ds ih =>
    rw [readFrom, valueFrom?]
    cases hd : digit? radix c with
    | none => simp
    | some d =>
      have hn : sign * acc * radix + sign * d = sign * (acc * radix + d : Nat) := by
        rw [Int.mul_assoc, ← Int.mul_add, Int.natCast_add, Int.natCast_mul]
      dsimp only [Option.bind_some]
      rw [hn]
      generalize acc * radix + d = next at *
      -- what the digits up to here denote is on the side of the sign, and the rest only adds to it
      have hle {k : Nat} (hk : valueFrom? radix next ds = some k) : next ≤ k :=
        le_of_valueFrom? hr hk
      by_cases hl : sign * next < b.lo
      · rw [if_pos hl]
        refine ⟨fun h ↦ (by cases h), ?_⟩
        rintro ⟨⟨k, hk, rfl⟩, hm, -⟩
        have := hle hk
        rcases hs with rfl | rfl <;> omega
      · rw [if_neg hl]
        by_cases hh : b.hi < sign * next
        · rw [if_pos hh]
          refine ⟨fun h ↦ (by cases h), ?_⟩
          rintro ⟨⟨k, hk, rfl⟩, -, hm⟩
          have := hle hk
          rcases hs with rfl | rfl <;> omega
        · rw [if_neg hh]
          exact ih ⟨Int.not_lt.mp hl, Int.not_lt.mp hh⟩

theorem readFrom_u32_eq_ok_iff (m : Int) :
    readFrom .u32 10 1 0 ds = .ok m ↔ (∀ c ∈ ds, c.isDigit = true) ∧
      Nat.ofDigitChars 10 ds 0 < 2 ^ 32 ∧ m = Nat.ofDigitChars 10 ds 0 := by
  have hu : Bounds.u32.hi = 4294967295 := rfl
  have hl : Bounds.u32.lo = 0 := rfl
  have h := @readFrom_eq_ok_iff ds .u32 10 0 1 m (by decide) (by decide) (by decide) (.inl rfl)
    (by decide)
  rw [Int.natCast_zero, Int.mul_zero] at h
  rw [h]
  constructor
  · rintro ⟨⟨k, hk, rfl⟩, -, hm⟩
    obtain ⟨hd, rfl⟩ := valueFrom?_ten_eq_some_iff.mp hk
    exact ⟨hd, by omega, Int.one_mul _⟩
  · rintro ⟨hd, hlt, rfl⟩
    refine ⟨⟨_, valueFrom?_ten_eq_some_iff.mpr ⟨hd, rfl⟩, (Int.one_mul _).symm⟩, ?_⟩
    omega

inductive Spells (radix : Nat) : List Char → Int → Prop
  | plain {ds : List Char} {k : Nat} (hn : ds ≠ []) (h : valueFrom? radix 0 ds = some k) :
    Spells radix ds k
  | plus {ds : List Char} {k : Nat} (hn : ds ≠ []) (h : valueFrom? radix 0 ds = some k) :
    Spells radix ('+' :: ds) k
  | minus {ds : List Char} {k : Nat} (hn : ds ≠ []) (h : valueFrom? radix 0 ds = some k) :
    Spells radix ('-' :: ds) (-k)

section

variable {radix : Nat} {m : Int}

theorem valueFrom?_of_sign {acc : Nat} (hc : c = '+' ∨ c = '-') :
    valueFrom? radix acc (c :: ds) = none := by
  have hd : digit? radix c = none := by
    rcases hc with rfl | rfl <;> exact if_neg (Nat.lt_irrefl radix)
  rw [valueFrom?, hd, Option.bind_none]

theorem spells_plus_iff : Spells radix ('+' :: ds) m ↔
    ds ≠ [] ∧ ∃ k : Nat, valueFrom? radix 0 ds = some k ∧ m = k := by
  constructor
  · intro h
    cases h with
    | plain _ h => cases (valueFrom?_of_sign (.inl rfl)).symm.trans h
    | plus hn h => exact ⟨hn, _, h, rfl⟩
  · rintro ⟨hn, k, h, rfl⟩
    exact .plus hn h

theorem spells_minus_iff : Spells radix ('-' :: ds) m ↔
    ds ≠ [] ∧ ∃ k : Nat, valueFrom? radix 0 ds = some k ∧ m = -k := by
  constructor
  · intro h
    cases h with
    | plain _ h => cases (valueFrom?_of_sign (.inr rfl)).symm.trans h
    | minus hn h => exact ⟨hn, _, h, rfl⟩
  · rintro ⟨hn, k, h, rfl⟩
    exact .minus hn h

theorem spells_cons_iff (hp : c ≠ '+') (hm : c ≠ '-') :
    Spells radix (c :: ds) m ↔ ∃ k : Nat, valueFrom? radix 0 (c :: ds) = some k ∧ m = k := by
  constructor
  · intro h
    cases h with
    | plain _ h => exact ⟨_, h, rfl⟩
    | plus => exact absurd rfl hp
    | minus => exact absurd rfl hm
  · rintro ⟨k, h, rfl⟩
    exact .plain (List.cons_ne_nil c ds) h

theorem read_eq_ok_iff {b : Bounds} (hr : 0 < radix) (hlo : b.lo < 0) (hhi : 0 ≤ b.hi) :
    read b radix ds = .ok m ↔ Spells radix ds m ∧ b.lo ≤ m ∧ m ≤ b.hi := by
  have hf {sign : Int} {s : List Char} (hs : sign = 1 ∨ sign = -1) :
      readFrom b radix sign 0 s = .ok m ↔
        (∃ k : Nat, valueFrom? radix 0 s = some k ∧ m = sign * k) ∧ b.lo ≤ m ∧ m ≤ b.hi := by
    have h := @readFrom_eq_ok_iff s b radix 0 sign m hr (Int.le_of_lt hlo) hhi hs
    rw [Int.natCast_zero, Int.mul_zero] at h
    exact h ⟨Int.le_of_lt hlo, hhi⟩
  unfold read
  split
  case h_1 =>
    refine ⟨fun h ↦ (by cases h), fun h ↦ ?_⟩
    cases h.1 with
    | plain hn => exact absurd rfl hn
  case h_2 =>
    rw [spells_plus_iff]
    simp
  case h_3 =>
    rw [spells_minus_iff]
    simp
  case h_4 s hn =>
    have hn : s ≠ [] := hn
    rw [hf (.inl rfl), spells_plus_iff]
    simp [hn]
  case h_5 c s _ hn hp =>
    have hp : c ≠ '+' := hp
    by_cases hc : c = '-'
    · subst hc
      have hn : s ≠ [] := fun h ↦ hn rfl h
      rw [if_pos ⟨rfl, hlo⟩, hf (.inr rfl), spells_minus_iff]
      simp [hn]
    · rw [if_neg fun h ↦ hc h.1, hf (.inl rfl), spells_cons_iff hp hc]
      simp

theorem Spells.unique {n : Int} (hr : 0 < radix) (h : Spells radix ds m) (h' : Spells radix ds n) :
    m = n := by
  have hread {k : Int} (hk : Spells radix ds k) (hn : k.natAbs ≤ m.natAbs + n.natAbs) :
      read ⟨-(m.natAbs + n.natAbs : Nat) - 1, (m.natAbs + n.natAbs : Nat)⟩ radix ds = .ok k :=
    (read_eq_ok_iff hr (by dsimp only; omega) (by dsimp only; omega)).mpr
      ⟨hk, by dsimp only; omega, by dsimp only; omega⟩
  have hm := hread h (Nat.le_add_right _ _)
  have hn := hread h' (Nat.le_add_left _ _)
  exact Except.ok.inj (hm.symm.trans hn)

theorem read?_i64_eq_some_iff :
    read? .i64 10 ds = some m ↔ Spells 10 ds m ∧ -2 ^ 63 ≤ m ∧ m < 2 ^ 63 := by
  have h := @read_eq_ok_iff ds 10 m .i64 (by decide) (by decide) (by decide)
  have hlo : Bounds.i64.lo = -2 ^ 63 := by decide
  have hhi : Bounds.i64.hi = 2 ^ 63 - 1 := by decide
  have ho : read? .i64 10 ds = some m ↔ read .i64 10 ds = .ok m := by
    rw [read?]
    cases read .i64 10 ds <;> simp [Except.toOption]
  rw [ho, h, hlo, hhi, Int.le_sub_one_iff]

theorem valueFrom?_decimal (n : Nat) : valueFrom? 10 0 (decimal n) = some n := by
  have hv : Nat.ofDigitChars 10 (decimal n) 0 = n := Nat.ofDigitChars_toDigits (by omega) (by omega)
  exact valueFrom?_ten_eq_some_iff.mpr ⟨digits_decimal n, hv.symm⟩

theorem spells_signed (n : Int) : Spells 10 (signed n) n := by
  have hn : decimal n.natAbs ≠ [] := Nat.toDigits_ne_nil
  have hv := valueFrom?_decimal n.natAbs
  unfold signed
  split
  case isTrue h =>
    have hs := Spells.minus hn hv
    rwa [Int.ofNat_natAbs_of_nonpos (Int.le_of_lt h), Int.neg_neg] at hs
  case isFalse h =>
    have hs := Spells.plain hn hv
    rwa [Int.natAbs_of_nonneg (Int.not_lt.mp h)] at hs

/-- A sign or zeros that the shortest text of a number does without. -/
inductive Redundant : List Char → Prop
  | plus (s : List Char) : Redundant ('+' :: s)
  | zero (c : Char) (s : List Char) : Redundant ('0' :: c :: s)
  | minusZero (s : List Char) : Redundant ('-' :: '0' :: s)

theorem eq_nil_of_decimal {n : Nat} (h : decimal n = '0' :: ds) : ds = [] := by
  refine Decidable.byContradiction fun hn ↦ ?_
  have hd : ∀ c ∈ ds, c.isDigit = true := fun c hc ↦
    digits_decimal n c (h ▸ List.mem_cons_of_mem _ hc)
  have hv : Nat.ofDigitChars 10 (decimal n) 0 = n := Nat.ofDigitChars_toDigits (by omega) (by omega)
  rw [h, Nat.ofDigitChars_cons] at hv
  -- the digits behind the zero are enough for the number
  have hlt : Nat.ofDigitChars 10 ds 0 < (0 + 1) * 10 ^ ds.length := ofDigitChars_lt hd 0
  rw [Nat.zero_add, Nat.one_mul] at hlt
  have hle : (decimal n).length ≤ ds.length :=
    (Nat.length_toDigits_le_iff (by omega) (List.length_pos_iff.mpr hn)).mpr (hv ▸ hlt)
  rw [h, List.length_cons] at hle
  omega

theorem not_redundant_decimal (n : Nat) : ¬ Redundant (decimal n) := by
  intro h
  generalize hd : decimal n = s at h
  cases h with
  | plus s => cases digits_decimal n '+' (hd ▸ List.mem_cons_self)
  | zero c s => cases eq_nil_of_decimal hd
  | minusZero s => cases digits_decimal n '-' (hd ▸ List.mem_cons_self)

theorem eq_decimal_iff {k : Nat} (hn : ds ≠ []) (h : valueFrom? 10 0 ds = some k) :
    ds = decimal k ↔ ¬ Redundant ds := by
  refine ⟨fun he ↦ he ▸ not_redundant_decimal k, fun hr ↦ ?_⟩
  obtain ⟨hd, rfl⟩ := valueFrom?_ten_eq_some_iff.mp h
  have hlt := ofDigitChars_lt hd 0
  rw [Nat.zero_add, Nat.one_mul] at hlt
  have hp := padded_value hd rfl (List.length_pos_iff.mpr hn) hlt
  generalize Nat.ofDigitChars 10 ds 0 = k at hp ⊢
  -- zeros that pad the number stand in front of its digits
  rw [padded] at hp
  cases hz : ds.length - (decimal k).length with
  | zero =>
    rw [hz] at hp
    exact hp.symm
  | succ j =>
    rw [hz, List.replicate_succ, List.cons_append] at hp
    cases ht : List.replicate j '0' ++ decimal k with
    | nil => exact absurd (List.append_eq_nil_iff.mp ht).2 Nat.toDigits_ne_nil
    | cons c s =>
      rw [ht] at hp
      exact absurd (hp ▸ .zero c s) hr

theorem eq_decimal_and_pos_iff {k : Nat} (hn : ds ≠ []) (h : valueFrom? 10 0 ds = some k) :
    ds = decimal k ∧ 0 < k ↔ ¬ Redundant ('-' :: ds) := by
  constructor
  · rintro ⟨rfl, hk⟩ hr
    generalize hd : decimal k = s at hr
    cases hr with
    | minusZero s =>
      obtain rfl := eq_nil_of_decimal hd
      have hv := valueFrom?_decimal k
      rw [hd] at hv
      cases hv
      exact absurd hk (by decide)
  · intro hr
    have hd : ds = decimal k := by
      refine (eq_decimal_iff hn h).mpr fun hz ↦ ?_
      cases hz with
      | plus s => cases (valueFrom?_of_sign (.inl rfl)).symm.trans h
      | zero c s => exact hr (.minusZero _)
      | minusZero s => cases (valueFrom?_of_sign (.inr rfl)).symm.trans h
    refine ⟨hd, Nat.pos_of_ne_zero fun hk ↦ hr ?_⟩
    subst hk
    exact hd ▸ .minusZero []

/-- The shortest text of an integer is the one without a redundant sign or zero. -/
theorem eq_signed_iff (h : Spells 10 ds m) : ds = signed m ↔ ¬ Redundant ds := by
  have hs (k : Nat) : signed k = decimal k := if_neg (Int.not_lt.mpr (Int.natCast_nonneg k))
  cases h with
  | plain hn h =>
    rw [hs]
    exact eq_decimal_iff hn h
  | @plus ds k hn h =>
    rw [hs]
    refine ⟨fun he ↦ ?_, fun hr ↦ absurd (.plus _) hr⟩
    cases digits_decimal k '+' (he ▸ List.mem_cons_self)
  | @minus ds k hn h =>
    rw [← eq_decimal_and_pos_iff hn h]
    cases k with
    | zero =>
      have hz : signed (-(0 : Nat)) = ['0'] := rfl
      rw [hz]
      exact ⟨fun he ↦ (by cases he), fun hk ↦ absurd hk.2 (Nat.lt_irrefl 0)⟩
    | succ k =>
      have hneg : signed (-(k + 1 : Nat)) = '-' :: decimal (k + 1) := if_pos (by omega)
      rw [hneg, List.cons.injEq]
      exact ⟨fun he ↦ ⟨he.2, Nat.succ_pos k⟩, fun hk ↦ ⟨rfl, hk.1⟩⟩

end

theorem read_of_head (hn : ds ≠ []) (hs : ∀ c ∈ ds.head?, c ≠ '+' ∧ c ≠ '-') :
    read .u32 10 ds = readFrom .u32 10 1 0 ds := by
  cases ds with
  | nil => exact absurd rfl hn
  | cons c ds =>
    obtain ⟨hp, hm⟩ := hs c rfl
    have hc : ¬ (c = '-' ∧ Bounds.u32.lo < 0) := fun h ↦ hm h.1
    unfold read
    split
    case h_1 h => cases h
    case h_2 h => cases h; exact absurd rfl hp
    case h_3 h => cases h; exact absurd rfl hm
    case h_4 h => cases h; exact absurd rfl hp
    case h_5 h => cases h; exact if_neg hc

theorem readIndex_eq_ok_iff {n : UInt32} (hd : DigitRun ds) :
    readIndex ds = .ok n ↔ Denotes ds n := by
  have hs : ∀ c ∈ ds.head?, c ≠ '+' ∧ c ≠ '-' := by
    intro c hc
    have hc := hd.digits c (List.mem_of_mem_head? hc)
    constructor <;> rintro rfl <;> revert hc <;> decide
  rw [readIndex, read_of_head hd.ne_nil hs]
  constructor
  · intro h
    cases hm : readFrom .u32 10 1 0 ds with
    | error e =>
      rw [hm] at h
      cases h
    | ok m =>
      rw [hm] at h
      obtain ⟨hds, hlt, rfl⟩ := (readFrom_u32_eq_ok_iff m).mp hm
      cases h
      exact ⟨hd.ne_nil, hds, (UInt32.toNat_ofNat_of_lt' hlt).symm⟩
  · intro h
    have hlt : Nat.ofDigitChars 10 ds 0 < 2 ^ 32 := h.value ▸ n.toNat_lt
    rw [(readFrom_u32_eq_ok_iff _).mpr ⟨h.digits, hlt, rfl⟩, h.value]
    exact congrArg Except.ok UInt32.ofNat_toNat

end Numeral

end AlarmPanel
