import AlarmPanel.Proofs.Decimal.Range
import AlarmPanel.Proofs.Text.Number
import AlarmPanel.Proofs.Text.Run

namespace AlarmPanel.Decimal

open Text Numeral

def Digits (ds : List Char) : Prop :=
  ∀ c ∈ ds, c.isDigit = true

def valueOf (ds : List Char) : Nat :=
  Nat.ofDigitChars 10 ds 0

inductive Signed (negative : Bool) (t : List Char) : List Char → Prop
  | plain (h : negative = false) : Signed negative t t
  | plus (h : negative = false) : Signed negative t ('+' :: t)
  | minus (h : negative = true) : Signed negative t ('-' :: t)

inductive Scales : List Char → Int → Prop
  | none : Scales [] 0
  | marked {c : Char} {s : List Char} {e : Int} (hc : c = 'e' ∨ c = 'E') (h : Spells 10 s e) :
    Scales (c :: s) e

/-- A numeral without a sign stands for `digits * 10 ^ exponent`. -/
inductive Denotes : List Char → Nat → Int → Prop
  | whole {ds t : List Char} {e : Int} (hn : ds ≠ []) (hd : Digits ds) (ht : Scales t e) :
    Denotes (ds ++ t) (valueOf ds) e
  | pointed {ds fs t : List Char} {e : Int} (hn : ds ++ fs ≠ []) (hd : Digits ds) (hf : Digits fs)
      (ht : Scales t e) : Denotes (ds ++ '.' :: (fs ++ t)) (valueOf (ds ++ fs)) (e - fs.length)

def IsWord (w : List Char) (s : String) : Prop :=
  w.map Char.toLower = s.toList

inductive Means : List Char → Float → Prop
  | infinite {negative : Bool} {s t : List Char} (hs : Signed negative t s)
      (h : IsWord t "inf" ∨ IsWord t "infinity") : Means s (ofMagnitude negative infinityBits)
  | nan {negative : Bool} {s t : List Char} (hs : Signed negative t s) (h : IsWord t "nan") :
    Means s (0.0 / 0.0)
  | number {negative : Bool} {s t : List Char} {digits : Nat} {e : Int} (hs : Signed negative t s)
      (h : Denotes t digits e) : Means s (nearestScientific negative digits e)

inductive Unbounded : List Char → Prop
  | word {negative : Bool} {s t : List Char} (hs : Signed negative t s)
      (h : IsWord t "inf" ∨ IsWord t "infinity" ∨ IsWord t "nan") : Unbounded s
  | number {negative : Bool} {s t : List Char} {digits : Nat} {e : Int} (hs : Signed negative t s)
      (h : Denotes t digits e) (hl : limit ≤ digits * 10 ^ e) : Unbounded s

variable {s t ds : List Char} {c : Char} {e : Int} {digits : Nat} {negative : Bool} {x : Float}

theorem spells_nil : ¬ Spells 10 [] e := by
  intro h
  cases h with
  | plain hn => exact hn rfl

theorem exponent?_eq_some_iff : exponent? s = some e ↔ Spells 10 s e := by
  have hbody (negative : Bool) (ds : List Char) :
      (if ds.isEmpty || !ds.all Char.isDigit then none
        else some (if negative then -(valueOf ds : Int) else (valueOf ds : Int))) = some e ↔
      ds ≠ [] ∧ ∃ k : Nat, valueFrom? 10 0 ds = some k ∧ e = if negative then -(k : Int) else k := by
    have hc : (ds.isEmpty || !ds.all Char.isDigit) = true ↔ ¬ (ds ≠ [] ∧ Digits ds) := by
      rw [not_and_or, not_not, Bool.or_eq_true, List.isEmpty_iff, Bool.not_eq_true',
        ← Bool.not_eq_true, List.all_eq_true, Digits]
    simp only [valueFrom?_ten_eq_some_iff]
    by_cases h : ds ≠ [] ∧ Digits ds
    · rw [if_neg (mt hc.mp (not_not.mpr h)), Option.some.injEq]
      constructor
      · rintro rfl
        exact ⟨h.1, _, ⟨h.2, rfl⟩, rfl⟩
      · rintro ⟨-, k, ⟨-, rfl⟩, rfl⟩
        rfl
    · rw [if_pos (hc.mpr h)]
      refine iff_of_false (by simp) ?_
      rintro ⟨hn, k, ⟨hd, -⟩, -⟩
      exact h ⟨hn, hd⟩
  rw [exponent?]
  fun_cases signed? s with
  | case1 t =>
    rw [spells_minus_iff]
    exact hbody true t
  | case2 t =>
    rw [spells_plus_iff]
    exact hbody false t
  | case3 t hm hp =>
    refine (hbody false s).trans ?_
    cases s with
    | nil => simp [spells_nil]
    | cons c t =>
      rw [spells_cons_iff (fun h ↦ hp t (h ▸ rfl)) (fun h ↦ hm t (h ▸ rfl))]
      simp

theorem signed_of_signed? (h : signed? s = (negative, t)) : Signed negative t s := by
  revert h
  fun_cases signed? s with
  | case1 s =>
    rintro ⟨⟩
    exact .minus rfl
  | case2 s =>
    rintro ⟨⟩
    exact .plus rfl
  | case3 s =>
    rintro ⟨⟩
    exact .plain rfl

theorem Signed.signed?_eq (h : Signed negative t s) (ht : ∀ c ∈ t.head?, c ≠ '+' ∧ c ≠ '-') :
    signed? s = (negative, t) := by
  cases h with
  | plus h => rw [signed?, h]
  | minus h => rw [signed?, h]
  | plain h =>
    rw [h]
    fun_cases signed? s with
    | case1 => simp at ht
    | case2 => simp at ht
    | case3 => rfl

def scaled? (value : Int → Float) : List Char → Option Float
  | [] => some (value 0)
  | c :: s => if c = 'e' ∨ c = 'E' then (exponent? s).map value else none

theorem scaled?_eq_some_iff {value : Int → Float} :
    scaled? value t = some x ↔ ∃ e, Scales t e ∧ x = value e := by
  cases t with
  | nil =>
    rw [scaled?, Option.some.injEq]
    constructor
    · rintro rfl
      exact ⟨0, .none, rfl⟩
    · rintro ⟨e, h, rfl⟩
      cases h
      rfl
  | cons c s =>
    rw [scaled?]
    split_ifs with hc
    · simp only [Option.map_eq_some_iff, exponent?_eq_some_iff]
      constructor
      · rintro ⟨e, h, rfl⟩
        exact ⟨e, .marked hc h, rfl⟩
      · rintro ⟨e, h, rfl⟩
        cases h with
        | marked _ h => exact ⟨e, h, rfl⟩
    · refine iff_of_false (by simp) ?_
      rintro ⟨e, h, -⟩
      cases h with
      | marked h => exact hc h

theorem Scales.head (h : Scales t e) : ∀ c ∈ t.head?, c.isDigit = false ∧ c ≠ '.' := by
  cases h with
  | none => simp
  | marked hc =>
    rintro c ⟨⟩
    rcases hc with rfl | rfl <;> decide

def fractionOf : List Char → List Char × List Char
  | '.' :: s => (s.takeWhile Char.isDigit, s.dropWhile Char.isDigit)
  | s => ([], s)

theorem fractionOf_of_head (h : ∀ c ∈ t.head?, c ≠ '.') : fractionOf t = ([], t) := by
  fun_cases fractionOf t with
  | case1 s => simp at h
  | case2 => rfl

variable {fs : List Char}

theorem unsigned?_of_split (hs : s.takeWhile Char.isDigit = ds)
    (hf : fractionOf (s.dropWhile Char.isDigit) = (fs, t)) :
    unsigned? negative s = if ds ++ fs = [] then none
      else scaled? (fun e ↦ nearestScientific negative (valueOf (ds ++ fs)) (e - fs.length)) t := by
  have hu : unsigned? negative s =
      if ds.isEmpty && (fractionOf (s.dropWhile Char.isDigit)).1.isEmpty then none
      else scaled? (fun e ↦ nearestScientific negative
        (valueOf (ds ++ (fractionOf (s.dropWhile Char.isDigit)).1))
        (e - (fractionOf (s.dropWhile Char.isDigit)).1.length))
        (fractionOf (s.dropWhile Char.isDigit)).2 := by
    rw [← hs]
    rfl
  rw [hu, hf]
  by_cases hn : ds ++ fs = [] <;> simp_all

theorem digits_takeWhile (s : List Char) : Digits (s.takeWhile Char.isDigit) :=
  fun _ hc ↦ List.mem_takeWhile_imp hc

theorem denotes_of_split (hf : fractionOf (s.dropWhile Char.isDigit) = (fs, t))
    (hn : s.takeWhile Char.isDigit ++ fs ≠ []) (ht : Scales t e) :
    Denotes s (valueOf (s.takeWhile Char.isDigit ++ fs)) (e - fs.length) := by
  have hd := digits_takeWhile s
  have hs : s.takeWhile Char.isDigit ++ s.dropWhile Char.isDigit = s := List.takeWhile_append_dropWhile
  generalize s.takeWhile Char.isDigit = ds at *
  generalize s.dropWhile Char.isDigit = r at *
  subst hs
  revert hf
  fun_cases fractionOf r with
  | case1 r =>
    rintro ⟨⟩
    have h := Denotes.pointed hn hd (digits_takeWhile r) ht
    rwa [List.takeWhile_append_dropWhile] at h
  | case2 r =>
    rintro ⟨⟩
    rw [List.append_nil] at hn ⊢
    simpa using Denotes.whole hn hd ht

theorem unsigned?_eq_some_iff : unsigned? negative s = some x ↔
    ∃ digits e, Denotes s digits e ∧ x = nearestScientific negative digits e := by
  constructor
  · intro h
    rcases hf : fractionOf (s.dropWhile Char.isDigit) with ⟨fs, t⟩
    rw [unsigned?_of_split rfl hf] at h
    split_ifs at h with hn
    obtain ⟨e, ht, rfl⟩ := scaled?_eq_some_iff.mp h
    exact ⟨_, _, denotes_of_split hf hn ht, rfl⟩
  · rintro ⟨digits, e, h, rfl⟩
    cases h with
    | whole hn hd ht =>
      obtain ⟨h1, h2⟩ := takeWhile_run hd fun c hc ↦ (ht.head c hc).1
      have hf := fractionOf_of_head fun c hc ↦ (ht.head c hc).2
      rw [unsigned?_of_split h1 (by rw [h2, hf]), if_neg (by simpa using hn), scaled?_eq_some_iff]
      exact ⟨_, ht, by simp⟩
    | pointed hn hd hf ht =>
      obtain ⟨h1, h2⟩ := takeWhile_run (b := '.' :: _) hd (by simp)
      obtain ⟨h3, h4⟩ := takeWhile_run hf fun c hc ↦ (ht.head c hc).1
      rw [unsigned?_of_split h1 (by rw [h2, fractionOf, h3, h4]), if_neg hn, scaled?_eq_some_iff]
      exact ⟨_, ht, rfl⟩

theorem Denotes.head (h : Denotes t digits e) : ∃ c ∈ t.head?, c.isDigit = true ∨ c = '.' := by
  cases h with
  | whole hn hd =>
    obtain ⟨c, ds, rfl⟩ := List.exists_cons_of_ne_nil hn
    exact ⟨c, rfl, .inl (hd c List.mem_cons_self)⟩
  | @pointed ds _ _ _ _ hd =>
    cases ds with
    | nil => exact ⟨'.', rfl, .inr rfl⟩
    | cons c ds => exact ⟨c, rfl, .inl (hd c List.mem_cons_self)⟩

theorem Denotes.head_of_isWord {w : String} (h : Denotes t digits e) (hw : IsWord t w) :
    ∃ c ∈ w.toList.head?, c.isDigit = true ∨ c = '.' := by
  obtain ⟨c, hc, hk⟩ := h.head
  refine ⟨c, ?_, hk⟩
  have hl : c.toLower = c := by
    rcases toLower_cases c with ⟨-, hl⟩ | ⟨hu, -⟩
    · exact hl
    · rcases hk with hk | rfl
      · have := isDigit_iff.mp hk
        omega
      · exact absurd hu (by decide)
  rw [← hw, List.head?_map, hc, Option.map_some, hl]
  rfl

theorem Denotes.no_sign (h : Denotes t digits e) : ∀ c ∈ t.head?, c ≠ '+' ∧ c ≠ '-' := by
  obtain ⟨c, hc, hk⟩ := h.head
  intro d hd
  cases hc.symm.trans hd
  constructor <;> rintro rfl <;> simp at hk

theorem IsWord.no_sign {w : String} (h : IsWord t w) (hw : ∀ c ∈ w.toList.head?, c ≠ '+' ∧ c ≠ '-') :
    ∀ c ∈ t.head?, c ≠ '+' ∧ c ≠ '-' := by
  intro c hc
  have hl : c.toLower ∈ w.toList.head? := by
    rw [← h, List.head?_map, hc]
    rfl
  have := hw _ hl
  constructor <;> rintro rfl <;> simp at this

theorem read?_eq_some_iff : read? s = some x ↔ Means s x := by
  constructor
  · intro h
    rcases hs : signed? s with ⟨negative, t⟩
    have hs' := signed_of_signed? hs
    simp only [read?, hs] at h
    split_ifs at h with hi hn
    · cases h
      exact .infinite hs' hi
    · cases h
      exact .nan hs' hn
    · obtain ⟨digits, e, hd, rfl⟩ := unsigned?_eq_some_iff.mp h
      exact .number hs' hd
  · intro h
    cases h with
    | infinite hs h =>
      have ht := h.elim (IsWord.no_sign · (by simp)) (IsWord.no_sign · (by simp))
      simp only [read?, hs.signed?_eq ht]
      exact if_pos h
    | @nan _ _ t hs h =>
      have hi : ¬ (IsWord t "inf" ∨ IsWord t "infinity") := by
        rintro (hi | hi) <;> exact absurd (h.symm.trans hi) (by decide)
      simp only [read?, hs.signed?_eq (h.no_sign (by simp))]
      exact (if_neg hi).trans (if_pos h)
    | @number _ _ t _ _ hs h =>
      have hi : ¬ (IsWord t "inf" ∨ IsWord t "infinity") := by
        rintro (hi | hi) <;> simpa using h.head_of_isWord hi
      have hn : ¬ IsWord t "nan" := fun hn ↦ by simpa using h.head_of_isWord hn
      simp only [read?, hs.signed?_eq h.no_sign]
      exact (if_neg hi).trans ((if_neg hn).trans (unsigned?_eq_some_iff.mpr ⟨_, _, h, rfl⟩))

/-- What is read, but as no finite number. -/
theorem unbounded_iff : Unbounded s ↔ ∃ x, read? s = some x ∧ x.isFinite = false := by
  simp only [read?_eq_some_iff]
  constructor
  · intro h
    cases h with
    | @word negative _ _ hs h =>
      rcases or_assoc.mpr h with h | h
      · refine ⟨_, .infinite hs h, ?_⟩
        rw [← Bool.not_eq_true, isFinite_ofMagnitude negative le_rfl]
        exact lt_irrefl _
      · exact ⟨_, .nan hs h, by decide +kernel⟩
    | number hs h hl =>
      refine ⟨_, .number hs h, ?_⟩
      rwa [← Bool.not_eq_true, isFinite_nearestScientific, not_lt]
  · rintro ⟨x, h, hx⟩
    cases h with
    | infinite hs h => exact .word hs (or_assoc.mp (.inl h))
    | nan hs h => exact .word hs (.inr (.inr h))
    | number hs h =>
      rw [← Bool.not_eq_true, isFinite_nearestScientific, not_lt] at hx
      exact .number hs h hx

instance (s : List Char) : Decidable (Unbounded s) :=
  decidable_of_iff ((read? s).any fun x ↦ !x.isFinite) (by simp [unbounded_iff, Option.any_eq_true])

end AlarmPanel.Decimal
