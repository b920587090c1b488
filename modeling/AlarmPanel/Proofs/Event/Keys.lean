import Mathlib.Data.List.Nodup
import AlarmPanel.Event
import AlarmPanel.Proofs.Text.Number
import AlarmPanel.Text.Word

namespace AlarmPanel

open Text

namespace Text

variable {c : Char}

theorem isWordChar_of_isAlpha (h : c.isAlpha = true) : isWordChar c = true := by
  simp [isWordChar, Char.isAlphanum, h]

theorem isWordChar_of_isDigit (h : c.isDigit = true) : isWordChar c = true := by
  simp [isWordChar, Char.isAlphanum, h]

theorem isAlpha_iff : c.isAlpha = true ↔
    65 ≤ c.toNat ∧ c.toNat ≤ 90 ∨ 97 ≤ c.toNat ∧ c.toNat ≤ 122 := by
  have ha : c.isAlpha = (decide (65 ≤ c.val ∧ c.val ≤ 90) ||
      decide (97 ≤ c.val) && decide (c.val ≤ 122)) := rfl
  rw [ha, Bool.or_eq_true, Bool.and_eq_true]
  simp only [decide_eq_true_eq, UInt32.le_iff_toNat_le]
  rfl

theorem isWordChar_of_isBlank (h : isBlank c = true) : isWordChar c = false := by
  have hall : ∀ n ∈ blankCodes, inRanges wordRanges n = false ∧ n ≠ 95 ∧ ¬ (48 ≤ n ∧ n ≤ 57) ∧
      ¬ (65 ≤ n ∧ n ≤ 90 ∨ 97 ≤ n ∧ n ≤ 122) := by decide +kernel
  obtain ⟨hr, hu, hd, ha⟩ := hall c.toNat (mem_blankCodes h)
  have hc : c ≠ '_' := fun hc ↦ hu (hc ▸ rfl)
  rw [← isDigit_iff, Bool.not_eq_true] at hd
  rw [← isAlpha_iff, Bool.not_eq_true] at ha
  simp [isWordChar, Char.isAlphanum, hr, hd, ha, hc]

end Text

theorem Numeral.decimal_inj {m n : Nat} (h : decimal m = decimal n) : m = n := by
  have hm := valueFrom?_decimal m
  rw [h, valueFrom?_decimal] at hm
  exact (Option.some.inj hm).symm

namespace Action

theorem mem_all (a : Action) : a ∈ all := by
  cases a <;> decide

theorem key_inj {a a' : Action} (h : a.key = a'.key) : a = a' := by
  have hn : (all.map key).Nodup := by decide
  exact List.inj_on_of_nodup_map hn a.mem_all a'.mem_all h

end Action

/-- What bindings can name: the partition, an action, or a zone or user by its number. -/
inductive Key where
  | partition
  | action (a : Action)
  | zone (n : Nat)
  | user (n : Nat)
  deriving DecidableEq

namespace Key

def word : Key → String
  | partition => "Partition"
  | action a => a.key
  | zone _ => "Zone"
  | user _ => "User"

def index : Key → List Char
  | zone n | user n => ' ' :: Numeral.decimal n
  | partition | action _ => []

def text (k : Key) : List Char :=
  k.word.toList ++ k.index

def name (k : Key) : String :=
  String.ofList k.text

def words : List String :=
  ["Partition", "Zone", "User"]

variable {k k' : Key} {c : Char} {r r' : List Char}

theorem toList_name (k : Key) : k.name.toList = k.text := String.toList_ofList

theorem mem_words (k : Key) : k.word ∈ words ++ Action.all.map Action.key := by
  cases k with
  | action a => exact List.mem_append_right _ (List.mem_map_of_mem a.mem_all)
  | partition | zone n | user n => simp [word, words]

theorem letters_word (k : Key) : ∀ c ∈ k.word.toList, c.isAlpha = true := by
  have hall : ∀ w ∈ words ++ Action.all.map Action.key, w.toList.all Char.isAlpha = true := by
    decide
  exact List.all_eq_true.mp (hall _ k.mem_words)

theorem exists_word (k : Key) : ∃ c w, k.word.toList = c :: w ∧ c ∉ w := by
  have hall : ∀ w ∈ words ++ Action.all.map Action.key,
      (w.toList.head?.any fun c ↦ !w.toList.tail.contains c) = true := by decide
  have hk := hall _ k.mem_words
  cases hw : k.word.toList with
  | nil =>
    rw [hw] at hk
    cases hk
  | cons c w => exact ⟨c, w, rfl, by simpa [hw] using hk⟩

theorem key_notMem_words (a : Action) : a.key ∉ words := by
  have hall : ∀ a ∈ Action.all, a.key ∉ words := by decide
  exact hall a a.mem_all

theorem mem_index (h : c ∈ k.index) : c = ' ' ∨ c.isDigit = true := by
  cases k with
  | zone n | user n =>
    rcases List.mem_cons.mp h with rfl | h
    · exact .inl rfl
    · exact .inr (Numeral.digits_decimal n c h)
  | partition | action a => cases h

theorem isAlpha_of_mem_index (h : c ∈ k.index) : ¬ c.isAlpha = true := by
  rcases mem_index h with rfl | h
  · decide
  · rw [isDigit_iff] at h
    rw [isAlpha_iff]
    omega

theorem exists_text (k : Key) : ∃ c w, k.text = c :: w ∧ c ∉ w ∧ c.isAlpha = true := by
  obtain ⟨c, w, hw, hc⟩ := k.exists_word
  have ha : c.isAlpha = true := k.letters_word c (hw ▸ List.mem_cons_self)
  refine ⟨c, w ++ k.index, by rw [text, hw]; rfl, fun h ↦ ?_, ha⟩
  rcases List.mem_append.mp h with h | h
  · exact hc h
  · exact isAlpha_of_mem_index h ha

theorem mem_text (h : c ∈ k.text) : c.isAlpha = true ∨ c = ' ' ∨ c.isDigit = true := by
  rcases List.mem_append.mp h with h | h
  · exact .inl (k.letters_word c h)
  · exact .inr (mem_index h)

theorem cases_of_word (h : k.word = k'.word) :
    k = k' ∨ (∃ m n, k = zone m ∧ k' = zone n) ∨ ∃ m n, k = user m ∧ k' = user n := by
  have hne {a : Action} {w : String} (hw : w ∈ words) : a.key ≠ w :=
    fun he ↦ key_notMem_words a (he ▸ hw)
  cases k with
  | partition =>
    cases k' with
    | partition => exact .inl rfl
    | action a => exact absurd h.symm (hne (by decide))
    | zone n | user n => exact absurd h (by simp [word])
  | action a =>
    cases k' with
    | action a' => exact .inl (congrArg action (Action.key_inj h))
    | partition | zone n | user n => exact absurd h (hne (by simp [word, words]))
  | zone m =>
    cases k' with
    | zone n => exact .inr (.inl ⟨m, n, rfl, rfl⟩)
    | action a => exact absurd h.symm (hne (by simp [word, words]))
    | partition | user n => exact absurd h (by simp [word])
  | user m =>
    cases k' with
    | user n => exact .inr (.inr ⟨m, n, rfl, rfl⟩)
    | action a => exact absurd h.symm (hne (by simp [word, words]))
    | partition | zone n => exact absurd h (by simp [word])

theorem decimal_unique {m n : Nat} (hr : ∀ c ∈ r.head?, isWordChar c = false)
    (hr' : ∀ c ∈ r'.head?, isWordChar c = false)
    (h : Numeral.decimal m ++ r = Numeral.decimal n ++ r') : m = n := by
  have hd {s : List Char} (hs : ∀ c ∈ s.head?, isWordChar c = false) :
      ∀ c ∈ s.head?, c.isDigit = false := by
    intro c hc
    by_contra hd
    have hw := isWordChar_of_isDigit (by simpa using hd)
    cases hw.symm.trans (hs c hc)
  exact Numeral.decimal_inj
    (prefix_unique (Numeral.digits_decimal m) (hd hr) (Numeral.digits_decimal n) (hd hr') h).1

theorem text_unique (hr : ∀ c ∈ r.head?, isWordChar c = false)
    (hr' : ∀ c ∈ r'.head?, isWordChar c = false) (h : k.text ++ r = k'.text ++ r') : k = k' := by
  have hi {j : Key} {s : List Char} (hs : ∀ c ∈ s.head?, isWordChar c = false) :
      ∀ c ∈ (j.index ++ s).head?, isWordChar c = false := by
    intro c hc
    cases j with
    | zone n | user n =>
      obtain rfl := Option.some.inj hc
      decide
    | partition | action a => exact hs c hc
  have hw (j : Key) : ∀ c ∈ j.word.toList, isWordChar c = true :=
    fun c hc ↦ isWordChar_of_isAlpha (j.letters_word c hc)
  rw [text, text, List.append_assoc, List.append_assoc] at h
  obtain ⟨hword, hrest⟩ := prefix_unique (hw k) (hi hr) (hw k') (hi hr') h
  rcases cases_of_word (String.toList_inj.mp hword) with hk | ⟨m, n, rfl, rfl⟩ | ⟨m, n, rfl, rfl⟩
  · exact hk
  · exact congrArg zone (decimal_unique hr hr' (List.cons.inj hrest).2)
  · exact congrArg user (decimal_unique hr hr' (List.cons.inj hrest).2)

theorem name_inj (h : k.name = k'.name) : k = k' := by
  have ht : k.text ++ [] = k'.text ++ [] := by rw [← toList_name, h, toList_name]
  exact text_unique (by simp) (by simp) ht

end Key

namespace Keyed

variable {α : Type} {key : String} {l m : List (String × α)}

theorem insert_perm (a : α) (h : key ∉ l.map Prod.fst) : (insert key a l).Perm ((key, a) :: l) := by
  induction l with
  | nil => exact .refl _
  | cons x l ih =>
    obtain ⟨hx, hl⟩ := List.ne_and_not_mem_of_not_mem_cons h
    rw [insert, if_neg hx]
    split
    case isTrue => exact .refl _
    case isFalse => exact ((ih hl).cons x).trans (.swap _ x l)

theorem foldl_insert_perm (h : ((l ++ m).map Prod.fst).Nodup) :
    (l.foldl (fun m x ↦ insert x.1 x.2 m) m).Perm (l ++ m) := by
  induction l generalizing m with
  | nil => exact .refl _
  | cons x l ih =>
    have hn : ((x :: (l ++ m)).map Prod.fst).Nodup := h
    rw [List.map_cons, List.nodup_cons] at hn
    have hx : x.1 ∉ m.map Prod.fst := fun hm ↦ hn.1 (by
      rw [List.map_append]
      exact List.mem_append_right _ hm)
    have hi := insert_perm x.2 hx
    have hm : (l ++ insert x.1 x.2 m).Perm (x :: (l ++ m)) :=
      (hi.append_left l).trans List.perm_middle
    exact (ih ((hm.map Prod.fst).nodup_iff.mpr h)).trans hm

theorem ofList_perm (h : (l.map Prod.fst).Nodup) : (ofList l).Perm l := by
  have hp := foldl_insert_perm (l := l) (m := []) (by rwa [List.append_nil])
  rwa [List.append_nil] at hp

end Keyed

namespace Event

variable (e : Event)

/-- What an event reports of its zone or user, where it does. -/
def subjectNamed? : Option (Key × Int) :=
  match e.subject with
  | some (.zone n) => e.action.zoneStatus?.map fun s ↦ (.zone n.toNat, s.code.toNat)
  | some (.user n) => some (.user n.toNat, e.action.code)
  | none => none

def named : List (Key × Int) :=
  (.partition, number e.partition) :: (.action e.action, e.subjectNumber) :: e.subjectNamed?.toList

theorem name_numberedKey (n : UInt32) : numberedKey "Zone" n = (Key.zone n.toNat).name ∧
    numberedKey "User" n = (Key.user n.toNat).name := by
  constructor <;> simp [numberedKey, Key.name, Key.text, Key.word, Key.index, String.ext_iff]

theorem entries_eq : e.entries = e.named.map fun v ↦ (v.1.name, v.2) := by
  have hs : e.subjectMember? = e.subjectNamed?.map fun v ↦ (v.1.name, v.2) := by
    cases hs : e.subject with
    | none => simp [subjectMember?, subjectNamed?, hs]
    | some x =>
      cases x with
      | zone n => simp [subjectMember?, subjectNamed?, hs, (name_numberedKey n).1, Function.comp_def]
      | user n => simp [subjectMember?, subjectNamed?, hs, (name_numberedKey n).2]
  have hp : Key.partition.name = "Partition" := rfl
  have ha : (Key.action e.action).name = e.action.key := by
    simp [Key.name, Key.text, Key.word, Key.index]
  rw [entries, named, hs, List.map_cons, List.map_cons, hp, ha]
  cases e.subjectNamed? <;> rfl

theorem nodup_named : (e.named.map Prod.fst).Nodup := by
  have hs : ∀ v ∈ e.subjectNamed?, (∃ n, v.1 = .zone n) ∨ ∃ n, v.1 = .user n := by
    cases hs : e.subject with
    | none => simp [subjectNamed?, hs]
    | some x => cases x <;> simp [subjectNamed?, hs]
  rw [named]
  cases h : e.subjectNamed? with
  | none => simp
  | some v =>
    rcases hs v h with ⟨n, hn⟩ | ⟨n, hn⟩ <;> simp [hn]

theorem nodup_entries : (e.entries.map Prod.fst).Nodup := by
  have hn : e.entries.map Prod.fst = (e.named.map Prod.fst).map Key.name := by
    rw [entries_eq, List.map_map, List.map_map]
    rfl
  rw [hn]
  exact e.nodup_named.map fun _ _ h ↦ Key.name_inj h

theorem values_perm : e.values.Perm e.entries :=
  Keyed.ofList_perm e.nodup_entries

end Event

structure IsReport (values : List (String × Int)) : Prop where
  nodup : (values.map Prod.fst).Nodup
  known : ∀ v ∈ values, ∃ (k : Key) (n : Nat), v = (k.name, (n : Int))

namespace IsReport

variable {values values' : List (String × Int)} {key : String} {x : Int}

theorem perm (h : IsReport values) (hp : values'.Perm values) : IsReport values' where
  nodup := (hp.map Prod.fst).nodup_iff.mpr h.nodup
  known v hv := h.known v (hp.mem_iff.mp hv)

theorem lookup_eq_some_iff (h : IsReport values) : values.lookup key = some x ↔ (key, x) ∈ values := by
  rw [List.lookup_eq_some_iff]
  constructor
  · rintro ⟨l, m, rfl, -⟩
    exact List.mem_append_right _ List.mem_cons_self
  · intro hm
    obtain ⟨l, m, rfl⟩ := List.append_of_mem hm
    refine ⟨l, m, rfl, fun v hv ↦ ?_⟩
    have hn := h.nodup
    rw [List.map_append, List.map_cons, List.nodup_append] at hn
    exact bne_iff_ne.mpr (hn.2.2 v.1 (List.mem_map_of_mem hv) key List.mem_cons_self).symm

theorem lookup_perm (h : IsReport values) (hp : values'.Perm values) :
    values'.lookup key = values.lookup key := by
  refine Option.ext fun x ↦ ?_
  rw [(h.perm hp).lookup_eq_some_iff, h.lookup_eq_some_iff, hp.mem_iff]

end IsReport

theorem Event.nonneg_named (e : Event) : ∀ v ∈ e.named, 0 ≤ v.2 := by
  intro v hv
  rcases List.mem_cons.mp hv with rfl | hv
  · exact Int.natCast_nonneg _
  rcases List.mem_cons.mp hv with rfl | hv
  · dsimp only [subjectNumber]
    split <;> exact Int.natCast_nonneg _
  · rw [Option.mem_toList, subjectNamed?] at hv
    split at hv
    case h_1 n hs =>
      obtain ⟨s, -, rfl⟩ := Option.map_eq_some_iff.mp hv
      exact Int.natCast_nonneg _
    case h_2 n hs =>
      obtain rfl := Option.some.inj hv
      exact Int.natCast_nonneg _
    case h_3 hs => cases hv

theorem Event.isReport_values (e : Event) : IsReport e.values := by
  refine IsReport.perm ⟨e.nodup_entries, fun v hv ↦ ?_⟩ e.values_perm
  rw [entries_eq] at hv
  obtain ⟨w, hw, rfl⟩ := List.mem_map.mp hv
  exact ⟨w.1, w.2.toNat, by rw [Int.toNat_of_nonneg (e.nonneg_named w hw)]⟩

def Event.breakIn : Event where
  date := ⟨2014, 1, 14, by decide, by decide, by decide, by decide, by decide⟩
  clock := ⟨17, 1, by decide, by decide⟩
  partition := 2
  action := .burglaryAlarm
  subject := some (.zone 5)

end AlarmPanel
