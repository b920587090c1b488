import Mathlib.Data.List.Forall2
import Mathlib.Data.Nat.Digits.Defs
import AlarmPanel.Proofs.Text.Number

namespace AlarmPanel.Numeral

open Text

def alphabet : List Char :=
  "0123456789abcdefghijklmnopqrstuvwxyz".toList

structure IsDigit (radix : Nat) (c : Char) (d : Nat) : Prop where
  lt : d < radix
  place : alphabet[d]? = some c.toLower

structure Amounts (radix : Nat) (ds : List Char) (k : Nat) : Prop where
  ne_nil : ds ≠ []
  value : ∃ vs, List.Forall₂ (IsDigit radix) ds vs ∧ k = Nat.ofDigits radix vs.reverse

/-- An integer written in a radix, with or without a sign in front. -/
inductive Writes (radix : Nat) : List Char → Int → Prop
  | plain {ds : List Char} {k : Nat} (h : Amounts radix ds k) : Writes radix ds k
  | plus {ds : List Char} {k : Nat} (h : Amounts radix ds k) : Writes radix ('+' :: ds) k
  | minus {ds : List Char} {k : Nat} (h : Amounts radix ds k) : Writes radix ('-' :: ds) (-k)

variable {radix d k acc : Nat} {c : Char} {ds : List Char} {n : Int}

theorem alphabet_eq_some_iff : alphabet[d]? = some c ↔
    d < 10 ∧ c.toNat = 48 + d ∨ 10 ≤ d ∧ d < 36 ∧ c.toNat = 87 + d := by
  have hall : ∀ i < 36, alphabet[i]?.map Char.toNat = some (if i < 10 then 48 + i else 87 + i) := by
    decide
  have hmap : alphabet[d]? = some c ↔ alphabet[d]?.map Char.toNat = some c.toNat := by
    cases alphabet[d]? with
    | none => simp
    | some b => simp [Char.toNat_inj]
  rw [hmap]
  rcases Nat.lt_or_ge d 36 with hd | hd
  · rw [hall d hd, Option.some.injEq]
    split <;> omega
  · have hlen : alphabet.length ≤ d := hd
    rw [List.getElem?_eq_none hlen]
    simp only [Option.map_none, reduceCtorEq, false_iff]
    omega

theorem digit?_eq_some_iff (h : radix ≤ 36) : digit? radix c = some d ↔ IsDigit radix c d := by
  have hd : digit? radix c = some d ↔ d < radix ∧ (48 ≤ c.toNat ∧ c.toNat ≤ 57 ∧ c.toNat = 48 + d ∨
      97 ≤ c.toNat ∧ c.toNat ≤ 122 ∧ c.toNat = 87 + d ∨
      65 ≤ c.toNat ∧ c.toNat ≤ 90 ∧ c.toNat = 55 + d) := by
    unfold digit?
    dsimp only
    split_ifs <;> simp only [Option.some.injEq, false_iff] <;> omega
  have hi : IsDigit radix c d ↔ d < radix ∧ alphabet[d]? = some c.toLower :=
    ⟨fun h ↦ ⟨h.lt, h.place⟩, fun h ↦ ⟨h.1, h.2⟩⟩
  rw [hd, hi, alphabet_eq_some_iff]
  rcases toLower_cases c with ⟨hn, hl⟩ | ⟨hn, hl⟩
  · rw [hl]
    omega
  · omega

theorem valueFrom?_eq_some_iff (h : radix ≤ 36) : valueFrom? radix acc ds = some k ↔
    ∃ vs, List.Forall₂ (IsDigit radix) ds vs ∧
      k = Nat.ofDigits radix vs.reverse + radix ^ vs.length * acc := by
  induction ds generalizing acc with
  | nil =>
    rw [valueFrom?, Option.some.injEq, eq_comm]
    simp only [List.forall₂_nil_left_iff, exists_eq_left, List.reverse_nil, Nat.ofDigits_nil,
      List.length_nil, Nat.pow_zero, Nat.one_mul, Nat.zero_add]
  | cons c ds ih =>
    have hstep (d : Nat) (vs : List Nat) :
        Nat.ofDigits radix (d :: vs).reverse + radix ^ (d :: vs).length * acc =
          Nat.ofDigits radix vs.reverse + radix ^ vs.length * (acc * radix + d) := by
      rw [List.reverse_cons, Nat.ofDigits_append, Nat.ofDigits_singleton, List.length_reverse,
        List.length_cons, Nat.pow_succ]
      ring
    simp only [valueFrom?, Option.bind_eq_some_iff, digit?_eq_some_iff h, ih]
    constructor
    · rintro ⟨d, hd, vs, hvs, rfl⟩
      exact ⟨d :: vs, .cons hd hvs, (hstep d vs).symm⟩
    · rintro ⟨_, hvs, rfl⟩
      cases hvs with
      | @cons _ d _ vs hd hvs => exact ⟨d, hd, vs, hvs, hstep d vs⟩

theorem amounts_iff (h : radix ≤ 36) :
    Amounts radix ds k ↔ ds ≠ [] ∧ valueFrom? radix 0 ds = some k := by
  have hv : valueFrom? radix 0 ds = some k ↔
      ∃ vs, List.Forall₂ (IsDigit radix) ds vs ∧ k = Nat.ofDigits radix vs.reverse := by
    simp only [valueFrom?_eq_some_iff h, Nat.mul_zero, Nat.add_zero]
  rw [hv]
  exact ⟨fun ha ↦ ⟨ha.ne_nil, ha.value⟩, fun ha ↦ ⟨ha.1, ha.2⟩⟩

theorem spells_iff_writes (h : radix ≤ 36) : Spells radix ds n ↔ Writes radix ds n := by
  constructor
  · intro hs
    cases hs with
    | plain hn hv => exact .plain ((amounts_iff h).mpr ⟨hn, hv⟩)
    | plus hn hv => exact .plus ((amounts_iff h).mpr ⟨hn, hv⟩)
    | minus hn hv => exact .minus ((amounts_iff h).mpr ⟨hn, hv⟩)
  · intro hw
    cases hw with
    | plain ha =>
      obtain ⟨hn, hv⟩ := (amounts_iff h).mp ha
      exact .plain hn hv
    | plus ha =>
      obtain ⟨hn, hv⟩ := (amounts_iff h).mp ha
      exact .plus hn hv
    | minus ha =>
      obtain ⟨hn, hv⟩ := (amounts_iff h).mp ha
      exact .minus hn hv

theorem IsDigit.visible (h : IsDigit radix c d) : isBlank c = false ∧ c ≠ '=' := by
  have hp := alphabet_eq_some_iff.mp h.place
  have hc : 48 ≤ c.toNat ∧ c.toNat ≤ 57 ∨ 65 ≤ c.toNat ∧ c.toNat ≤ 122 := by
    rcases toLower_cases c with ⟨-, hl⟩ | ⟨hn, -⟩
    · rw [hl] at hp
      omega
    · omega
  constructor
  · have hb : ¬ isBlank c = true := by
      simp only [isBlank, Bool.or_eq_true, Bool.and_eq_true, decide_eq_true_eq, beq_iff_eq]
      omega
    simpa using hb
  · rintro rfl
    revert hc
    decide

theorem Amounts.visible (h : Amounts radix ds k) : ∀ c ∈ ds, isBlank c = false ∧ c ≠ '=' := by
  obtain ⟨vs, hvs, -⟩ := h.value
  intro c hc
  obtain ⟨i, hi, rfl⟩ := List.getElem_of_mem hc
  exact (hvs.get hi (hvs.length_eq ▸ hi)).visible

theorem Writes.visible (h : Writes radix ds n) : ∀ c ∈ ds, isBlank c = false ∧ c ≠ '=' := by
  cases h with
  | plain h => exact h.visible
  | plus h | minus h =>
    intro c hc
    rcases List.mem_cons.mp hc with rfl | hc
    · decide
    · exact h.visible c hc

/-- The values of the digits of a number, the greatest place first. Zero has one digit. -/
def places (radix n : Nat) : List Nat :=
  if n = 0 then [0] else (Nat.digits radix n).reverse

def inRadix (radix n : Nat) : List Char :=
  (places radix n).map fun d ↦ alphabet.getD d '0'

def signedIn (radix zeros : Nat) (n : Int) : List Char :=
  (if n < 0 then ['-'] else []) ++ (List.replicate zeros '0' ++ inRadix radix n.natAbs)

theorem isDigit_getD (h : radix ≤ 36) (hd : d < radix) : IsDigit radix (alphabet.getD d '0') d := by
  have hall : ∀ i < 36, alphabet[i]? = some (alphabet.getD i '0').toLower := by decide
  exact ⟨hd, hall d (by omega)⟩

theorem ofDigits_places (radix n : Nat) : Nat.ofDigits radix (places radix n).reverse = n := by
  unfold places
  split
  case isTrue h => rw [h]; rfl
  case isFalse => rw [List.reverse_reverse, Nat.ofDigits_digits]

theorem amounts_inRadix (h2 : 2 ≤ radix) (h36 : radix ≤ 36) (zeros n : Nat) :
    Amounts radix (List.replicate zeros '0' ++ inRadix radix n) n := by
  have hz : List.Forall₂ (IsDigit radix) (List.replicate zeros '0') (List.replicate zeros 0) := by
    induction zeros with
    | zero => exact .nil
    | succ zeros ih => exact .cons (isDigit_getD h36 (d := 0) (by omega)) ih
  have hp : ∀ d ∈ places radix n, d < radix := by
    unfold places
    split
    · simp only [List.mem_singleton]
      omega
    · intro d hd
      exact Nat.digits_lt_base h2 (List.mem_reverse.mp hd)
  have hd : List.Forall₂ (IsDigit radix) (inRadix radix n) (places radix n) := by
    rw [inRadix, List.forall₂_map_left_iff, List.forall₂_same]
    exact fun d hd ↦ isDigit_getD h36 (hp d hd)
  refine ⟨?_, _, List.rel_append hz hd, ?_⟩
  · have hn : places radix n ≠ [] := by
      unfold places
      split
      case isTrue => simp
      case isFalse h => simpa using Nat.digits_ne_nil_iff_ne_zero.mpr h
    simp [inRadix, hn]
  · rw [List.reverse_append, List.reverse_replicate, Nat.ofDigits_append_replicate_zero,
      ofDigits_places]

theorem writes_signedIn (h2 : 2 ≤ radix) (h36 : radix ≤ 36) (zeros : Nat) (n : Int) :
    Writes radix (signedIn radix zeros n) n := by
  have ha := amounts_inRadix h2 h36 zeros n.natAbs
  unfold signedIn
  split
  case isTrue h =>
    have hw := Writes.minus ha
    rwa [Int.ofNat_natAbs_of_nonpos (Int.le_of_lt h), Int.neg_neg] at hw
  case isFalse h =>
    have hw := Writes.plain ha
    rwa [Int.natAbs_of_nonneg (Int.not_lt.mp h)] at hw

end AlarmPanel.Numeral
