import AlarmPanel.Reply
import AlarmPanel.Proofs.Text.Radix

namespace AlarmPanel.Payload

open Text Numeral

/-- The text from the first equals sign up to the next one, or to the end where there is no other. -/
structure IsValue (s v : List Char) : Prop where
  parts : ∃ name rest, s = name ++ '=' :: (v ++ rest) ∧ '=' ∉ name ∧ ∀ c ∈ rest.head?, c = '='
  notMem : '=' ∉ v

def Tells (radix : Nat) (s : List Char) (n : Int) : Prop :=
  ∃ l t r, IsValue s (l ++ (t ++ r)) ∧ Blanks l ∧ Blanks r ∧ Writes radix t n

variable {radix : Nat} {s v t l r name : List Char} {n : Int} {e : PanelError}

theorem value?_eq_some_iff : value? s = some v ↔ IsValue s v := by
  rw [value?, Option.map_eq_some_iff]
  constructor
  · rintro ⟨⟨name, w⟩, h, rfl⟩
    obtain ⟨x, hx, rfl, hn⟩ := splitFirst?_eq_some_iff.mp h
    obtain rfl : x = '=' := by simpa using hx
    refine ⟨⟨name, w.dropWhile (· != '='), by rw [List.takeWhile_append_dropWhile], ?_, ?_⟩, ?_⟩
    · intro hm
      simpa using hn _ hm
    · intro c hc
      have := List.head?_dropWhile_not (· != '=') w
      rw [Option.mem_def.mp hc] at this
      simpa using this
    · intro hm
      simpa using List.all_eq_true.mp (List.all_takeWhile (l := w)) _ hm
  · rintro ⟨⟨name, rest, rfl, hn, hr⟩, hv⟩
    refine ⟨(name, v ++ rest), splitFirst?_eq_some_iff.mpr ⟨'=', by simp, rfl, ?_⟩, ?_⟩
    · intro c hc
      have hne : c ≠ '=' := fun h ↦ hn (h ▸ hc)
      simpa using hne
    · refine (takeWhile_run ?_ ?_).1
      · intro c hc
        have hne : c ≠ '=' := fun h ↦ hv (h ▸ hc)
        simpa using hne
      · intro c hc
        simpa using hr c hc

theorem trim_of_writes (hl : Blanks l) (hr : Blanks r) (ht : Writes radix t n) :
    trim (l ++ (t ++ r)) = t := by
  rw [trim_append hl t hr]
  refine trim_eq_self ?_ ?_
  · intro c hc
    exact (ht.visible c (List.mem_of_mem_head? hc)).1
  · intro c hc
    exact (ht.visible c (List.mem_of_getLast? hc)).1

theorem tells_iff : Tells radix s n ↔ ∃ v, IsValue s v ∧ Writes radix (trim v) n := by
  constructor
  · rintro ⟨l, t, r, hv, hl, hr, ht⟩
    exact ⟨_, hv, by rwa [trim_of_writes hl hr ht]⟩
  · rintro ⟨v, hv, ht⟩
    obtain ⟨l, r, hl, hr, hs⟩ := exists_trim v
    exact ⟨l, trim v, r, hs ▸ hv, hl, hr, ht⟩

theorem Tells.unique {m : Int} (h0 : 0 < radix) (h36 : radix ≤ 36) (h : Tells radix s m)
    (h' : Tells radix s n) : m = n := by
  obtain ⟨v, hv, hw⟩ := tells_iff.mp h
  obtain ⟨v', hv', hw'⟩ := tells_iff.mp h'
  cases (value?_eq_some_iff.mpr hv).symm.trans (value?_eq_some_iff.mpr hv')
  exact ((spells_iff_writes h36).mpr hw).unique h0 ((spells_iff_writes h36).mpr hw')

theorem not_tells_of_notMem (h : '=' ∉ s) : ¬ Tells radix s n := by
  rintro ⟨l, w, r, ⟨⟨name, rest, rfl, -⟩, -⟩, -⟩
  exact h (by simp)

theorem readInt_eq_ok_iff (h0 : 0 < radix) (h36 : radix ≤ 36) :
    readInt radix s = .ok n ↔ Tells radix s n ∧ -2 ^ 63 ≤ n ∧ n < 2 ^ 63 := by
  have hread (v : List Char) : (read .i64 radix v).mapError (badNumber v radix) = .ok n ↔
      Writes radix v n ∧ -2 ^ 63 ≤ n ∧ n < 2 ^ 63 := by
    have h := @read_eq_ok_iff v radix n .i64 h0 (by decide) (by decide)
    have hlo : Bounds.i64.lo = -2 ^ 63 := by decide
    have hhi : Bounds.i64.hi = 2 ^ 63 - 1 := by decide
    rw [spells_iff_writes h36, hlo, hhi, Int.le_sub_one_iff] at h
    rw [← h]
    cases read .i64 radix v <;> simp [Except.mapError]
  rw [readInt, tells_iff]
  cases hv : value? s with
  | none =>
    have hn : ¬ ∃ v, IsValue s v ∧ Writes radix (trim v) n := by
      rintro ⟨v, h, -⟩
      cases hv.symm.trans (value?_eq_some_iff.mpr h)
    simp [hn]
  | some v =>
    dsimp only
    rw [hread]
    constructor
    · rintro ⟨hw, hb⟩
      exact ⟨⟨v, value?_eq_some_iff.mp hv, hw⟩, hb⟩
    · rintro ⟨⟨w, hw, ht⟩, hb⟩
      cases hv.symm.trans (value?_eq_some_iff.mpr hw)
      exact ⟨ht, hb⟩

theorem malformed_of_readInt (h : readInt radix s = .error e) :
    ∃ details, e = .malformedResponse details := by
  unfold readInt at h
  split at h
  · cases h
    exact ⟨_, rfl⟩
  · cases hr : read .i64 radix (trim _) with
    | ok n =>
      rw [hr] at h
      cases h
    | error i =>
      rw [hr] at h
      cases h
      exact ⟨_, rfl⟩

theorem wireCode_eq_ok_iff {kind : String} {n : Int} {code : UInt32} :
    wireCode kind n = .ok code ↔ n = code.toNat := by
  have hhi : Bounds.u32.hi = 4294967295 := rfl
  have hlt : code.toNat < 2 ^ 32 := code.toNat_lt
  unfold wireCode
  split
  case isTrue h =>
    rw [Except.ok.injEq]
    constructor
    · rintro rfl
      have hn : n.toNat < 2 ^ 32 := by omega
      rw [UInt32.toNat_ofNat_of_lt' hn, Int.toNat_of_nonneg h.1]
    · rintro rfl
      rw [Int.toNat_natCast, UInt32.ofNat_toNat]
  case isFalse h =>
    refine ⟨fun he ↦ (by cases he), ?_⟩
    rintro rfl
    omega

theorem tells_signedIn (h2 : 2 ≤ radix) (h36 : radix ≤ 36) (hn : '=' ∉ name) (hl : Blanks l)
    (hr : Blanks r) (zeros : Nat) (n : Int) :
    Tells radix (name ++ '=' :: (l ++ (signedIn radix zeros n ++ r))) n := by
  have hw := writes_signedIn h2 h36 zeros n
  have hb {w : List Char} (h : Blanks w) : '=' ∉ w := fun hm ↦ by cases h _ hm
  refine ⟨l, _, r, ⟨⟨name, [], by rw [List.append_nil], hn, by simp⟩, ?_⟩, hl, hr, hw⟩
  simp only [List.mem_append, not_or]
  exact ⟨hb hl, fun hm ↦ (hw.visible _ hm).2 rfl, hb hr⟩

/-- An integer is read from a payload exactly if the payload tells it and 64 bits hold it; anything else
is a malformed response. So every such integer is read from its text in the radix. -/
theorem readInt_exact (h2 : 2 ≤ radix) (h36 : radix ≤ 36) :
    (∀ s n, readInt radix s = .ok n ↔ Tells radix s n ∧ -2 ^ 63 ≤ n ∧ n < 2 ^ 63) ∧
      (∀ s, (¬ ∃ n, Tells radix s n ∧ -2 ^ 63 ≤ n ∧ n < 2 ^ 63) →
        ∃ details, readInt radix s = .error (.malformedResponse details)) ∧
      ∀ name l r, '=' ∉ name → Blanks l → Blanks r → ∀ (zeros : Nat) (n : Int64),
        readInt radix (name ++ '=' :: (l ++ (signedIn radix zeros n.toInt ++ r))) = .ok n.toInt := by
  have h0 : 0 < radix := Nat.lt_of_lt_of_le Nat.zero_lt_two h2
  refine ⟨fun s n ↦ readInt_eq_ok_iff h0 h36, ?_, ?_⟩
  · intro s h
    cases hr : readInt radix s with
    | ok n => exact absurd ⟨n, (readInt_eq_ok_iff h0 h36).mp hr⟩ h
    | error e =>
      obtain ⟨details, rfl⟩ := malformed_of_readInt hr
      exact ⟨details, rfl⟩
  · intro name l r hn hl hr zeros n
    exact (readInt_eq_ok_iff h0 h36).mpr
      ⟨tells_signedIn h2 h36 hn hl hr zeros n.toInt, n.le_toInt, n.toInt_lt⟩

/-- The least number of 64 bits in base 36, a number in both cases before another equals sign, and a
payload without one. -/
theorem readInt_exact_lowest :
    2 ≤ 36 ∧ 36 ≤ 36 ∧ signedIn 36 2 (-2 ^ 63) = "-001y2p0ij32e8e8".toList ∧
      readInt 36 "A= -001y2p0ij32e8e8\u3000".toList = .ok (-2 ^ 63) ∧
      readInt 16 "ERR=+fF=7".toList = .ok 255 ∧
      ∃ details, readInt 10 "PWR1".toList = .error (.malformedResponse details) := by
  have ht : signedIn 36 2 (-2 ^ 63) = "-001y2p0ij32e8e8".toList := by decide
  refine ⟨by decide, by decide, ht, ?_, ?_, ?_⟩
  · have h := (@readInt_exact 36 (by decide) (by decide)).2.2 "A".toList [' '] ['\u3000']
      (by decide) (blanks_iff_all.mpr (by decide)) (blanks_iff_all.mpr (by decide)) 2 Int64.minValue
    have hmin : Int64.minValue.toInt = -2 ^ 63 := by decide
    rwa [hmin, ht] at h
  · refine ((readInt_exact (by decide) (by decide)).1 _ _).mpr ⟨?_, by decide, by decide⟩
    have hrest : ∀ c ∈ ['=', '7'].head?, c = '=' := fun c hc ↦ (Option.some.inj hc).symm
    refine ⟨[], ['+', 'f', 'F'], [], ⟨⟨"ERR".toList, ['=', '7'], rfl, by decide, hrest⟩, by decide⟩,
      blanks_nil, blanks_nil, ?_⟩
    have hl : IsDigit 16 'f' 15 := ⟨by decide, by decide⟩
    have hu : IsDigit 16 'F' 15 := ⟨by decide, by decide⟩
    exact .plus ⟨by simp, [15, 15], .cons hl (.cons hu .nil), rfl⟩
  · refine (readInt_exact (by decide) (by decide)).2.1 _ ?_
    rintro ⟨n, ⟨l, t, r, ⟨⟨name, rest, h, -⟩, -⟩, -⟩, -⟩
    have hm : '=' ∈ "PWR1".toList := by rw [h]; simp
    exact absurd hm (by decide)

end AlarmPanel.Payload
