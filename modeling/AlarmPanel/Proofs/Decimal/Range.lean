import AlarmPanel.Decimal.Reader
import Mathlib

namespace AlarmPanel.Decimal

open Float.Model (Format UnpackedFloat)
open Float.Model.UnpackedFloat

/-- The middle between the greatest number and the next power of two. -/
def limit : ℚ := 2 ^ (1024 : Int) - 2 ^ (970 : Int)

section Bits

theorem isFinite_unpack (b : BitVec Format.binary64.numBits) :
    (unpack Format.binary64 b).isFinite = true ↔ unpackExponent b ≠ (-1#11) := by
  unfold unpack
  dsimp only
  split_ifs <;> simp_all [UnpackedFloat.isFinite]

theorem unpackExponent_pack_finite (s : Sign) (m : Nat) {e : Int} (hm : 0 < m)
    (he : e ≤ 971) : unpackExponent (pack Format.binary64 (.finite s m e hm)) ≠ (-1#11) := by
  have hp : ((Format.binary64.exponentBias : Nat) : Int) = 1023 := rfl
  have hb : ¬ 2 ^ 11 ≤ (e + 1023 + 52).toNat + 1 := by omega
  simp only [pack, hp, Nat.cast_ofNat, if_neg hb]
  split_ifs
  · rw [unpackExponent_packComponents, ne_eq, ← BitVec.toNat_inj, BitVec.toNat_ofNat,
      show (-1#11 : BitVec 11).toNat = 2047 from rfl]
    omega
  · rw [unpackExponent_packComponents]
    decide

theorem unpackExponent_pack_unpack (b : BitVec Format.binary64.numBits) :
    unpackExponent (pack Format.binary64 (unpack Format.binary64 b)) = (-1#11) ↔
      unpackExponent b = (-1#11) := by
  have hp : ((Format.binary64.exponentBias : Nat) : Int) = 1023 := rfl
  have hl : (unpackExponent b : BitVec 11).toNat < 2048 := BitVec.isLt _
  unfold unpack
  dsimp only
  split_ifs with h1 _ h0
  · simp [pack, packedInfinity, h1]
  · simp [pack, packedNaN, h1]
  · simp [pack, packedZero, h0]
  · refine iff_of_false (unpackExponent_pack_finite _ _ _ ?_) h1
    have : (unpackExponent b).toNat = 0 := by rw [h0]; rfl
    rw [hp, this]
    decide
  · refine iff_of_false (unpackExponent_pack_finite _ _ _ ?_) h1
    have : (unpackExponent b : BitVec 11).toNat ≠ 2047 := fun h ↦ h1 (BitVec.eq_of_toNat_eq h)
    rw [hp]
    push_cast
    omega

theorem isFinite_ofBits (b : UInt64) :
    (Float.ofBits b).isFinite = true ↔ b.toNat / 2 ^ 52 % 2 ^ 11 ≠ 2047 := by
  have h : (@unpackExponent Format.binary64 b.toBitVec).toNat =
      b.toNat / 2 ^ 52 % 2 ^ 11 := by
    simp [unpackExponent, Nat.shiftRight_eq_div_pow]
  rw [← h]
  refine (isFinite_unpack _).trans ?_
  rw [show (2047 : Nat) = (-1#11 : BitVec 11).toNat from rfl, ne_eq, ne_eq, BitVec.toNat_inj]
  exact not_congr (unpackExponent_pack_unpack _)

theorem isFinite_ofMagnitude (negative : Bool) {bits : Nat} (h : bits ≤ infinityBits) :
    (ofMagnitude negative bits).isFinite = true ↔ bits < infinityBits := by
  have hi : infinityBits = 2047 * 2 ^ 52 := rfl
  unfold ofMagnitude
  rw [isFinite_ofBits]
  cases negative <;> simp [Nat.pow_eq] <;> omega

end Bits

section Rounding

variable {num den n : Nat} {base : Nat} {negative : Bool}

theorem up_pos (hb : 0 < base) (k : Int) : 0 < up base k := Nat.pow_pos hb

theorem down_pos (hb : 0 < base) (k : Int) : 0 < down base k := Nat.pow_pos hb

theorem down_div_up (hb : 0 < base) (k : Int) : (down base k / up base k : ℚ) = (base : ℚ) ^ k := by
  have hb : (base : ℚ) ≠ 0 := by exact_mod_cast hb.ne'
  rw [down, up, Nat.pow_eq, Nat.pow_eq, Nat.cast_pow, Nat.cast_pow, ← zpow_natCast, ← zpow_natCast,
    ← zpow_sub₀ hb, Int.toNat_sub_toNat_neg]

/-- Below an even number lies what is below the middle to its left: from there on its neighbour, which
is odd, gives way. -/
theorem roundEven_lt_iff (hd : 0 < den) (hn : Even n) :
    roundEven num den < n ↔ (num / den : ℚ) < n - 1 / 2 := by
  have hd' : (0 : ℚ) < den := by exact_mod_cast hd
  have hmid : (num / den : ℚ) < n - 1 / 2 ↔ 2 * num + den < 2 * (den * n) := by
    rw [div_lt_iff₀ hd', ← Nat.cast_lt (α := ℚ)]
    push_cast
    constructor <;> intro h <;> linarith
  have hnum : den * (num / den) + num % den = num := Nat.div_add_mod num den
  have hr : num % den < den := Nat.mod_lt _ hd
  rw [hmid, roundEven]
  generalize num / den = q at *
  generalize num % den = r at *
  obtain ⟨k, rfl⟩ := hn
  rcases lt_trichotomy (q + 1) (k + k) with h | h | h
  · have := Nat.mul_le_mul_left den (show q + 2 ≤ k + k from h)
    rw [mul_add] at this
    split_ifs <;> omega
  · rw [← h, mul_add]
    split_ifs <;> omega
  · have := Nat.mul_le_mul_left den (show k + k ≤ q by omega)
    split_ifs <;> omega

theorem lt_two_zpow_iff {x : ℚ} (hx : 0 < x) {e : Int} : x < 2 ^ e ↔ Int.log 2 x < e :=
  Int.lt_zpow_iff_log_lt one_lt_two hx

theorem two_zpow_le_iff {x : ℚ} (hx : 0 < x) {e : Int} : 2 ^ e ≤ x ↔ e ≤ Int.log 2 x :=
  Int.zpow_le_iff_le_log one_lt_two hx

theorem ratio_pos (hn : 0 < num) (hd : 0 < den) : (0 : ℚ) < num / den :=
  div_pos (by exact_mod_cast hn) (by exact_mod_cast hd)

theorem log2Floor_eq (hn : 0 < num) (hd : 0 < den) :
    log2Floor num den = Int.log 2 (num / den : ℚ) := by
  have hd' : (0 : ℚ) < den := by exact_mod_cast hd
  have hx := ratio_pos hn hd
  set e : Int := (num.log2 : Int) - den.log2 with he
  -- the ratio of the leading bits is at most a factor of two away from that of the numbers
  have hlow : e - 1 ≤ Int.log 2 (num / den : ℚ) := by
    have h1 : (2 : ℚ) ^ num.log2 ≤ num := by exact_mod_cast Nat.log2_self_le hn.ne'
    have h2 : (den : ℚ) ≤ 2 ^ (den.log2 + 1) := by exact_mod_cast Nat.lt_log2_self.le
    rw [← two_zpow_le_iff hx, show e - 1 = (num.log2 : Int) - (den.log2 + 1 : Nat) by omega,
      zpow_sub₀ two_ne_zero, zpow_natCast, zpow_natCast]
    exact div_le_div₀ (Nat.cast_nonneg _) h1 hd' h2
  have hhigh : Int.log 2 (num / den : ℚ) < e + 1 := by
    have h1 : (num : ℚ) < 2 ^ (num.log2 + 1) := by exact_mod_cast Nat.lt_log2_self
    have h2 : (2 : ℚ) ^ den.log2 ≤ den := by exact_mod_cast Nat.log2_self_le hd.ne'
    rw [← lt_two_zpow_iff hx, show e + 1 = ((num.log2 + 1 : Nat) : Int) - den.log2 by omega,
      zpow_sub₀ two_ne_zero, zpow_natCast, zpow_natCast]
    exact div_lt_div₀ h1 h2 (by positivity) (by positivity)
  have hmid : num * up 2 e < den * down 2 e ↔ Int.log 2 (num / den : ℚ) < e := by
    have hu : (0 : ℚ) < up 2 e := by exact_mod_cast up_pos two_pos e
    have hp := down_div_up two_pos e
    rw [Nat.cast_ofNat] at hp
    rw [← lt_two_zpow_iff hx, ← hp, div_lt_div_iff₀ hd' hu, mul_comm (down 2 e : ℚ)]
    exact_mod_cast Iff.rfl
  rw [log2Floor, ← he]
  split_ifs with h
  · have := hmid.mp h
    omega
  · have := mt hmid.mpr h
    omega

theorem significand_lt_iff (hd : 0 < den) (q : Int) (hn : Even n) :
    roundEven (num * up 2 q) (den * down 2 q) < n ↔ (num / den : ℚ) < (n - 1 / 2) * 2 ^ q := by
  have hu : (0 : ℚ) < up 2 q := by exact_mod_cast up_pos two_pos q
  have hw : (0 : ℚ) < down 2 q := by exact_mod_cast down_pos two_pos q
  have hp := down_div_up two_pos q
  have hd' : (0 : ℚ) < den := by exact_mod_cast hd
  rw [Nat.cast_ofNat] at hp
  rw [roundEven_lt_iff (Nat.mul_pos hd (down_pos two_pos q)) hn, ← hp, ← div_lt_iff₀ (by positivity)]
  push_cast
  rw [div_div_div_eq]

theorem significand_lt (hn : 0 < num) (hd : 0 < den) {q : Int}
    (hq : Int.log 2 (num / den : ℚ) < q + 53) :
    roundEven (num * up 2 q) (den * down 2 q) < 2 ^ 53 + 2 := by
  rw [significand_lt_iff hd q (by decide)]
  calc (num / den : ℚ) < 2 ^ (q + 53) := (lt_two_zpow_iff (ratio_pos hn hd)).mpr hq
    _ = 2 ^ 53 * 2 ^ q := by rw [add_comm, zpow_add₀ two_ne_zero]; rfl
    _ ≤ (((2 ^ 53 + 2 : Nat) : ℚ) - 1 / 2) * 2 ^ q := by gcongr; norm_num

theorem le_significand (hn : 0 < num) (hd : 0 < den) {q : Int}
    (hq : q + 52 ≤ Int.log 2 (num / den : ℚ)) :
    2 ^ 52 ≤ roundEven (num * up 2 q) (den * down 2 q) := by
  rw [← not_lt, significand_lt_iff hd q (by decide), not_lt]
  calc (((2 ^ 52 : Nat) : ℚ) - 1 / 2) * 2 ^ q ≤ 2 ^ 52 * 2 ^ q := by gcongr; norm_num
    _ = 2 ^ (q + 52) := by rw [add_comm, zpow_add₀ two_ne_zero]; rfl
    _ ≤ num / den := (two_zpow_le_iff (ratio_pos hn hd)).mpr hq

theorem limit_eq : limit = (2 ^ 53 - 1 / 2) * 2 ^ (971 : Int) := by
  rw [limit, show (1024 : Int) = 54 + 970 from rfl, show (971 : Int) = 1 + 970 from rfl,
    zpow_add₀ two_ne_zero, zpow_add₀ two_ne_zero]
  generalize (2 : ℚ) ^ (970 : Int) = x
  norm_num
  ring

theorem le_limit : (2 : ℚ) ^ (1023 : Int) ≤ limit := by
  rw [limit_eq, show (1023 : Int) = 52 + 971 from rfl, zpow_add₀ two_ne_zero]
  gcongr
  norm_num

theorem limit_le : limit ≤ (2 : ℚ) ^ (1024 : Int) := by
  rw [limit_eq, show (1024 : Int) = 53 + 971 from rfl, zpow_add₀ two_ne_zero]
  gcongr
  norm_num

theorem limit_pos : 0 < limit :=
  lt_of_lt_of_le (by positivity) le_limit

/-- Only where the significand is in units of `2 ^ 971` does rounding decide. -/
theorem nearestBits_lt_iff (hd : 0 < den) :
    nearestBits num den < infinityBits ↔ (num / den : ℚ) < limit := by
  have hi : infinityBits = 2047 * 2 ^ 52 := rfl
  have hpow : Nat.pow 2 52 = 2 ^ 52 := rfl
  rcases Nat.eq_zero_or_pos num with rfl | hn
  · simp [nearestBits, hi, limit_pos]
  have hx := ratio_pos hn hd
  rw [nearestBits, if_neg hn.ne', log2Floor_eq hn hd, min_lt_iff, or_iff_left (lt_irrefl _), hpow, hi]
  rcases lt_trichotomy (Int.log 2 (num / den : ℚ)) 1023 with h | h | h
  · have hlt : (num / den : ℚ) < 2 ^ (1023 : Int) := (lt_two_zpow_iff hx).mpr h
    refine iff_of_true ?_ (hlt.trans_le le_limit)
    set q := max (Int.log 2 (num / den : ℚ) - 52) (-1074) with hq
    have := significand_lt hn hd (q := q) (by omega)
    omega
  · have hs : roundEven (num * up 2 971) (den * down 2 971) < 2 ^ 53 ↔ _ :=
      significand_lt_iff hd 971 (by decide)
    rw [Nat.cast_pow, Nat.cast_ofNat, ← limit_eq] at hs
    rw [h, show max (1023 - 52 : Int) (-1074) = 971 from rfl, ← hs]
    omega
  · have hle : (2 : ℚ) ^ (1024 : Int) ≤ num / den := (two_zpow_le_iff hx).mpr h
    refine iff_of_false ?_ (limit_le.trans hle).not_gt
    set q := max (Int.log 2 (num / den : ℚ) - 52) (-1074) with hq
    have := le_significand hn hd (q := q) (by omega)
    omega

theorem isFinite_nearest (hd : 0 < den) :
    (nearest negative num den).isFinite = true ↔ (num / den : ℚ) < limit := by
  have hle : nearestBits num den ≤ infinityBits := by
    rw [nearestBits]
    split_ifs
    · exact Nat.zero_le _
    · exact min_le_right _ _
  rw [nearest, isFinite_ofMagnitude negative hle, nearestBits_lt_iff hd]

theorem isFinite_ofInt {n : Int} (h : n.natAbs < 2 ^ 64) : (ofInt n).isFinite = true := by
  rw [ofInt, isFinite_nearest one_pos, Nat.cast_one, div_one]
  have h : (n.natAbs : ℚ) < 2 ^ (64 : Int) := by exact_mod_cast h
  refine h.trans_le (le_trans ?_ le_limit)
  gcongr <;> norm_num

theorem pow_length_le {n : Nat} (hn : 0 < n) :
    10 ^ ((Nat.toDigits 10 n).length - 1) ≤ n := by
  by_cases hk : 0 < (Nat.toDigits 10 n).length - 1
  · rw [← not_lt, ← Nat.length_toDigits_le_iff (by decide) hk]
    omega
  · rwa [Nat.eq_zero_of_not_pos hk]

theorem lt_pow_length (n : Nat) : n < 10 ^ (Nat.toDigits 10 n).length :=
  (Nat.length_toDigits_le_iff (by decide) Nat.length_toDigits_pos).mp le_rfl

theorem limit_le_ten_zpow {e : Int} (h : 320 ≤ e) : limit ≤ 10 ^ e :=
  calc limit ≤ 2 ^ (1024 : Int) := limit_le
    _ = ((2 : ℚ) ^ 16) ^ 64 := by rw [← pow_mul]; rfl
    _ ≤ ((10 : ℚ) ^ 5) ^ 64 := by gcongr; norm_num
    _ = 10 ^ (320 : Int) := by rw [← pow_mul]; rfl
    _ ≤ 10 ^ e := zpow_le_zpow_right₀ (by norm_num) h

theorem ten_zpow_lt_limit {e : Int} (h : e ≤ 0) : (10 : ℚ) ^ e < limit :=
  calc (10 : ℚ) ^ e ≤ 10 ^ (0 : Int) := zpow_le_zpow_right₀ (by norm_num) h
    _ < 2 ^ (1023 : Int) := one_lt_zpow₀ one_lt_two (by norm_num)
    _ ≤ limit := le_limit

theorem isFinite_nearestScientific {digits : Nat} {exponent : Int} :
    (nearestScientific negative digits exponent).isFinite = true ↔
      (digits * 10 ^ exponent : ℚ) < limit := by
  have hinf : 0 < infinityBits := by decide
  rcases Nat.eq_zero_or_pos digits with rfl | hn
  · rw [nearestScientific, if_pos (.inl rfl), isFinite_ofMagnitude _ (Nat.zero_le _)]
    simp [hinf, limit_pos]
  have hlen := @Nat.length_toDigits_pos 10 digits
  have hhigh := lt_pow_length digits
  have hlow := pow_length_le hn
  rw [nearestScientific]
  generalize (Nat.toDigits 10 digits).length = k at *
  have hscale : (0 : ℚ) < 10 ^ exponent := by positivity
  split_ifs with hsmall hlarge
  · have hs : exponent + k ≤ 0 := by omega
    rw [isFinite_ofMagnitude _ (Nat.zero_le _)]
    refine iff_of_true hinf (lt_trans ?_ (ten_zpow_lt_limit hs))
    rw [add_comm, zpow_add₀ (by norm_num), zpow_natCast]
    gcongr
    exact_mod_cast hhigh
  · rw [isFinite_ofMagnitude _ le_rfl]
    refine iff_of_false (lt_irrefl _) (not_lt.mpr ?_)
    refine (limit_le_ten_zpow (e := exponent + (k - 1 : Nat)) (by omega)).trans ?_
    rw [add_comm, zpow_add₀ (by norm_num), zpow_natCast]
    gcongr
    exact_mod_cast hlow
  · rw [isFinite_nearest (up_pos (by decide) _), Nat.cast_mul, mul_div_assoc,
      down_div_up (by decide), Nat.cast_ofNat]

end Rounding

end AlarmPanel.Decimal
