import AlarmPanel.Binding
import AlarmPanel.Proofs.Text.Run

namespace AlarmPanel.Source

open Text

/-- The key stands alone somewhere in a text that follows the character `before`. -/
def HasTokenAfter (before : Option Char) (key s : List Char) : Prop :=
  ∃ l r, s = l ++ (key ++ r) ∧ standsAlone (l.getLast?.or before) r.head? = true

def HasToken (key s : List Char) : Prop :=
  ∃ l r, s = l ++ (key ++ r) ∧ standsAlone l.getLast? r.head? = true

/-- The second text is the first one with `new` in place of the key wherever that stands alone, which
is `n` times. -/
inductive Written (key new : List Char) : Option Char → List Char → List Char → Nat → Prop
  | nil {before : Option Char} : Written key new before [] [] 0
  | token {before : Option Char} {s t : List Char} {n : Nat}
      (ha : standsAlone before s.head? = true) (h : Written key new key.getLast? s t n) :
    Written key new before (key ++ s) (new ++ t) (n + 1)
  | copy {before : Option Char} {c : Char} {s t : List Char} {n : Nat}
      (ha : ∀ r, c :: s = key ++ r → standsAlone before r.head? = false)
      (h : Written key new (some c) s t n) :
    Written key new before (c :: s) (c :: t) n

variable {k c : Char} {ks key new s t l : List Char} {before after : Option Char} {i n : Nat}

theorem standsAlone_iff : standsAlone before after = true ↔
    (∀ c ∈ before, isWordChar c = false) ∧ ∀ c ∈ after, isWordChar c = false := by
  cases before <;> cases after <;> simp [standsAlone]

theorem last_cons_or : (c :: l).getLast?.or before = l.getLast?.or (some c) := by
  rw [List.getLast?_cons]
  cases l.getLast? <;> rfl

theorem placesFrom_of_ne (h : c ≠ k) :
    placesFrom k ks before i (c :: s) = placesFrom k ks (some c) (i + 1) s := by
  rw [placesFrom, if_neg h]

theorem placesFrom_append (h : k ∉ l) : placesFrom k ks before i (l ++ s) =
    placesFrom k ks (l.getLast?.or before) (i + l.length) s := by
  induction l generalizing before i with
  | nil => rfl
  | cons c l ih =>
    obtain ⟨hc, hl⟩ := List.ne_and_not_mem_of_not_mem_cons h
    rw [List.cons_append, placesFrom_of_ne hc.symm, ih hl, last_cons_or, List.length_cons,
      Nat.add_assoc, Nat.add_comm 1]

theorem placesFrom_of_none (h : afterHead? ks s = none) :
    placesFrom k ks before i (k :: s) = placesFrom k ks (some k) (i + 1) s := by
  rw [placesFrom, if_pos rfl]
  split
  case h_1 r hr => cases h.symm.trans hr
  case h_2 => rfl

theorem placesFrom_key (r : List Char) : placesFrom k ks before i (k :: ks ++ r) =
    (if standsAlone before r.head? then [i] else []) ++
      placesFrom k ks (k :: ks).getLast? (i + (k :: ks).length) r := by
  have hr : afterHead? ks (ks ++ r) = some r := afterHead?_eq_some_iff.mpr rfl
  rw [List.cons_append, placesFrom, if_pos rfl]
  split
  case h_1 r' h =>
    obtain rfl := Option.some.inj (hr.symm.trans h)
    rw [List.length_cons, ← Nat.add_assoc]
    split <;> rfl
  case h_2 h => cases hr.symm.trans h

theorem placesFrom_shift (j : Nat) :
    placesFrom k ks before (i + j) s = (placesFrom k ks before i s).map (· + j) := by
  fun_induction placesFrom k ks before i s
  case case1 => rw [placesFrom, List.map_nil]
  case case2 i s r hr later ha ih | case3 i s r hr later ha ih =>
    obtain rfl := afterHead?_eq_some_iff.mp hr
    have hi : i + j + (k :: ks).length = i + ks.length + 1 + j := by
      rw [List.length_cons]
      omega
    rw [← List.cons_append, placesFrom_key, hi, ih]
    simp [ha, later]
  case case4 i s hn ih => rw [placesFrom_of_none hn, Nat.add_right_comm, ih]
  case case5 i c s hc ih => rw [placesFrom_of_ne hc, Nat.add_right_comm, ih]

theorem placesFrom_copy (hk : k ∉ ks)
    (ha : ∀ r, c :: s = k :: ks ++ r → standsAlone before r.head? = false) :
    placesFrom k ks before i (c :: s) = placesFrom k ks (some c) (i + 1) s := by
  by_cases hc : c = k
  · subst hc
    cases hs : afterHead? ks s with
    | none => exact placesFrom_of_none hs
    | some r =>
      obtain rfl := afterHead?_eq_some_iff.mp hs
      have hl : (c :: ks).getLast? = ks.getLast?.or (some c) := by
        rw [← last_cons_or, Option.or_none]
      rw [← List.cons_append, placesFrom_key, ha r rfl, placesFrom_append hk, hl, List.length_cons,
        Nat.add_assoc, Nat.add_comm 1]
      rfl
  · exact placesFrom_of_ne hc

theorem writeAt_append (a : List Char) :
    writeAt key new (i + a.length) (a ++ s) = a ++ writeAt key new i s := by
  have hi : i + a.length + key.length = a.length + (i + key.length) := by omega
  rw [writeAt, writeAt, hi, Nat.add_comm i, List.take_length_add_append, List.drop_length_add_append]
  simp only [List.append_assoc]

theorem writeAt_zero : writeAt key new 0 (key ++ s) = new ++ s := by
  rw [writeAt, List.take_zero, Nat.zero_add, List.drop_left]
  rfl

theorem foldr_writeAt_append (a : List Char) (places : List Nat) :
    (places.map (· + a.length)).foldr (writeAt key new) (a ++ s) =
      a ++ places.foldr (writeAt key new) s := by
  induction places with
  | nil => rfl
  | cons i places ih => rw [List.map_cons, List.foldr_cons, ih, writeAt_append, List.foldr_cons]

theorem Written.at_places (hk : k ∉ ks) (h : Written (k :: ks) new before s t n) :
    (placesFrom k ks before 0 s).length = n ∧
      (placesFrom k ks before 0 s).foldr (writeAt (k :: ks) new) s = t := by
  -- the first place is written last, so those behind it are still where they were found
  induction h with
  | nil => simp [placesFrom]
  | @token before s t n ha _ ih =>
    rw [placesFrom_key, if_pos ha, placesFrom_shift, List.singleton_append, List.length_cons,
      List.length_map, List.foldr_cons, foldr_writeAt_append, writeAt_zero, ih.1, ih.2]
    exact ⟨rfl, rfl⟩
  | @copy before c s t n ha _ ih =>
    have hf (places : List Nat) : (places.map (· + 1)).foldr (writeAt (k :: ks) new) (c :: s) =
        c :: places.foldr (writeAt (k :: ks) new) s := foldr_writeAt_append [c] places
    rw [placesFrom_copy hk ha, placesFrom_shift, List.length_map, ih.1, hf, ih.2]
    exact ⟨rfl, rfl⟩

theorem Written.replace_eq (hk : k ∉ ks) (h : Written (k :: ks) new none s t n) :
    replace (k :: ks) new s = t :=
  (h.at_places hk).2

theorem Written.occurs_iff (hk : k ∉ ks) (h : Written (k :: ks) new none s t n) :
    occurs (k :: ks) s = true ↔ 0 < n := by
  have hl : (places (k :: ks) s).length = n := (h.at_places hk).1
  rw [occurs, ← hl]
  cases places (k :: ks) s <;> simp

theorem exists_written (hk : key ≠ []) (new : List Char) (before : Option Char) (s : List Char) :
    ∃ t n, Written key new before s t n := by
  induction hs : s.length using Nat.strongRecOn generalizing before s with
  | _ m ih =>
    subst hs
    by_cases ha : ∃ r, s = key ++ r ∧ standsAlone before r.head? = true
    · obtain ⟨r, rfl, ha⟩ := ha
      have hlt : r.length < (key ++ r).length := by
        rw [List.length_append]
        exact Nat.lt_add_of_pos_left (List.length_pos_iff.mpr hk)
      obtain ⟨t, n, h⟩ := ih _ hlt key.getLast? r rfl
      exact ⟨_, _, .token ha h⟩
    · cases s with
      | nil => exact ⟨_, _, .nil⟩
      | cons c s =>
        obtain ⟨t, n, h⟩ := ih _ (Nat.lt_succ_self _) (some c) s rfl
        refine ⟨_, _, .copy (fun r hr ↦ ?_) h⟩
        exact Bool.eq_false_iff.mpr fun hb ↦ ha ⟨r, hr, hb⟩

theorem Written.hasToken_iff (hk : key ≠ []) (h : Written key new before s t n) :
    0 < n ↔ HasTokenAfter before key s := by
  induction h with
  | nil =>
    refine ⟨fun h ↦ absurd h (Nat.lt_irrefl 0), ?_⟩
    rintro ⟨l, r, h, -⟩
    simp [hk] at h
  | @token before s t n ha _ _ => exact ⟨fun _ ↦ ⟨[], s, rfl, ha⟩, fun _ ↦ Nat.succ_pos n⟩
  | @copy before c s t n ha _ ih =>
    rw [ih]
    constructor
    · rintro ⟨l, r, rfl, hr⟩
      exact ⟨c :: l, r, rfl, by rwa [last_cons_or]⟩
    · rintro ⟨l, r, h, hr⟩
      cases l with
      | nil => cases (ha r h).symm.trans hr
      | cons b l =>
        obtain ⟨rfl, rfl⟩ := List.cons.inj h
        exact ⟨l, r, rfl, by rwa [last_cons_or] at hr⟩

theorem hasTokenAfter_none : HasTokenAfter none key s ↔ HasToken key s := by
  simp only [HasTokenAfter, HasToken, Option.or_none]

end AlarmPanel.Source
