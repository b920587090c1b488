import AlarmPanel.Proofs.Binding.Matching

namespace AlarmPanel.Source

open Text

structure Gap where
  text : List Char
  blanks : Blanks text

inductive Operator where
  | add
  | sub
  | mul
  | div
  | pow
  | rem

def Operator.char : Operator → Char
  | add => '+'
  | sub => '-'
  | mul => '*'
  | div => '/'
  | pow => '^'
  | rem => '%'

inductive Leaf where
  | key (k : Key)
  | literal (zeros n : Nat)

namespace Leaf

def text : Leaf → List Char
  | key k => k.text
  | literal zeros n => List.replicate zeros '0' ++ Numeral.decimal n

def keys : Leaf → List Key
  | key k => [k]
  | literal _ _ => []

/-- A key that the values have gives way to its number, which in an event is not negative. -/
def fill (values : List (String × Int)) : Leaf → Leaf
  | key k =>
    match values.lookup k.name with
    | some x => literal 0 x.toNat
    | none => key k
  | literal zeros n => literal zeros n

end Leaf

inductive Term where
  | leaf (before : Gap) (l : Leaf) (after : Gap)
  | group (before : Gap) (t : Term) (after : Gap)
  | join (t : Term) (o : Operator) (u : Term)

namespace Term

def text : Term → List Char
  | leaf before l after => before.text ++ (l.text ++ after.text)
  | group before t after => before.text ++ '(' :: (t.text ++ ')' :: after.text)
  | join t o u => t.text ++ o.char :: u.text

def map (f : Leaf → Leaf) : Term → Term
  | leaf before l after => leaf before (f l) after
  | group before t after => group before (t.map f) after
  | join t o u => join (t.map f) o (u.map f)

def keys : Term → List Key
  | leaf _ l _ => l.keys
  | group _ t _ => t.keys
  | join t _ u => t.keys ++ u.keys

def hasOperator : Term → Bool
  | leaf _ _ _ => false
  | group _ t _ => t.hasOperator
  | join _ _ _ => true

def fill (values : List (String × Int)) (t : Term) : Term :=
  t.map (Leaf.fill values)

end Term

variable {k j : Key} {key new s s' w : List Char} {c : Char} {before : Option Char} {m n : Nat}
  {values values' : List (String × Int)}

theorem Written.copy_word (hc : isWordChar c = true) (hw : ∀ a ∈ w, isWordChar a = true)
    (h : ∀ before, Written key new before s s' m) : Written key new (some c) (w ++ s) (w ++ s') m := by
  induction w generalizing c with
  | nil => exact h _
  | cons a w ih =>
    obtain ⟨ha, hw⟩ := List.forall_mem_cons.mp hw
    refine .copy (fun r _ ↦ ?_) (ih ha hw)
    simp [standsAlone, hc]

theorem Written.copy_other (hc : c.isAlpha = false) (h : Written k.text new (some c) s s' m) :
    Written k.text new before (c :: s) (c :: s') m := by
  obtain ⟨a, w, hw, -, ha⟩ := k.exists_text
  refine .copy (fun r hr ↦ ?_) h
  rw [hw] at hr
  obtain ⟨rfl, -⟩ := List.cons.inj hr
  cases hc.symm.trans ha

theorem Written.copy_others (hw : ∀ c ∈ w, c.isAlpha = false)
    (h : ∀ before, Written k.text new before s s' m) :
    Written k.text new before (w ++ s) (w ++ s') m := by
  induction w generalizing before with
  | nil => exact h before
  | cons c w ih =>
    obtain ⟨hc, hw⟩ := List.forall_mem_cons.mp hw
    exact .copy_other hc (ih hw)

structure Onward (key new s s' : List Char) (m : Nat) : Prop where
  apart : ∀ c ∈ s.head?, isWordChar c = false
  written : ∀ before, Written key new before s s' m

theorem Onward.nil : Onward key new [] [] 0 where
  apart := by simp
  written _ := .nil

theorem Onward.mark (hc : isWordChar c = false) (h : Written k.text new (some c) s s' m) :
    Onward k.text new (c :: s) (c :: s') m where
  apart a ha := by
    obtain rfl := Option.some.inj ha
    exact hc
  written _ := .copy_other (Bool.eq_false_iff.mpr fun ha ↦ by
    cases hc.symm.trans (isWordChar_of_isAlpha ha)) h

theorem Onward.blanks (hw : Blanks w) (h : Onward k.text new s s' m) :
    Onward k.text new (w ++ s) (w ++ s') m := by
  induction w with
  | nil => exact h
  | cons c w ih =>
    obtain ⟨hc, hw⟩ := List.forall_mem_cons.mp hw
    exact .mark (isWordChar_of_isBlank hc) ((ih hw).written _)

theorem Written.blanks (hb : ∀ c ∈ before, isWordChar c = false) (hw : Blanks w)
    (h : ∀ before, (∀ c ∈ before, isWordChar c = false) → Written k.text new before s s' m) :
    Written k.text new before (w ++ s) (w ++ s') m := by
  induction w generalizing before with
  | nil => exact h before hb
  | cons c w ih =>
    obtain ⟨hc, hw⟩ := List.forall_mem_cons.mp hw
    have hc := isWordChar_of_isBlank hc
    refine (Onward.mark hc (ih ?_ hw)).written before
    simpa using hc

theorem Onward.key_of_ne (hj : j ≠ k) (h : Onward k.text new s s' m) :
    Written k.text new before (j.text ++ s) (j.text ++ s') m := by
  obtain ⟨c, w, hw, -⟩ := j.exists_word
  have hl := j.letters_word
  rw [hw, List.forall_mem_cons] at hl
  have htext (r : List Char) : j.text ++ r = c :: (w ++ (j.index ++ r)) := by
    rw [Key.text, hw, List.append_assoc]
    rfl
  have hindex (before) : Written k.text new before (j.index ++ s) (j.index ++ s') m :=
    .copy_others (fun a ha ↦ Bool.eq_false_iff.mpr (Key.isAlpha_of_mem_index ha)) h.written
  rw [htext, htext]
  refine .copy (fun r hr ↦ Bool.eq_false_iff.mpr fun hs ↦ ?_) (.copy_word (isWordChar_of_isAlpha hl.1)
    (fun a ha ↦ isWordChar_of_isAlpha (hl.2 a ha)) hindex)
  exact hj (Key.text_unique h.apart (standsAlone_iff.mp hs).2 ((htext s).trans hr))

namespace Leaf

theorem digits_literal (zeros : Nat) : ∀ c ∈ (literal zeros n).text, c.isAlpha = false := by
  intro c hc
  have hd : c.isDigit = true := by
    rcases List.mem_append.mp hc with hc | hc
    · obtain rfl := List.eq_of_mem_replicate hc
      decide
    · exact Numeral.digits_decimal n c hc
  rw [isDigit_iff] at hd
  refine Bool.eq_false_iff.mpr fun ha ↦ ?_
  rw [isAlpha_iff] at ha
  omega

theorem written (l : Leaf) (hb : ∀ c ∈ before, isWordChar c = false)
    (h : Onward k.text (Numeral.decimal n) s s' m) : Written k.text (Numeral.decimal n) before
      (l.text ++ s) ((l.fill [(k.name, (n : Int))]).text ++ s') (m + l.keys.count k) := by
  cases l with
  | literal zeros i => exact .copy_others (digits_literal zeros) h.written
  | key j =>
    by_cases hj : j = k
    · subst hj
      have hf : (key j).fill [(j.name, (n : Int))] = literal 0 n := by simp [fill]
      rw [hf, keys, List.count_singleton_self]
      exact .token (standsAlone_iff.mpr ⟨hb, h.apart⟩) (h.written _)
    · have hn : (j.name == k.name) = false := beq_eq_false_iff_ne.mpr fun hn ↦ hj (Key.name_inj hn)
      have hf : (key j).fill [(k.name, (n : Int))] = key j := by
        simp [fill, List.lookup_cons, hn]
      rw [hf, keys, List.count_singleton, if_neg (by simpa using hj)]
      exact h.key_of_ne hj

theorem fill_cons (v : String × Int) (l : Leaf) :
    l.fill (v :: values) = (l.fill [v]).fill values := by
  cases l with
  | literal zeros i => rfl
  | key j =>
    obtain ⟨key, x⟩ := v
    simp only [fill, List.lookup_cons, List.lookup_nil]
    cases j.name == key <;> rfl

end Leaf

namespace Term

theorem fill_nil (t : Term) : t.fill [] = t := by
  induction t with
  | leaf before l after => cases l <;> rfl
  | group before t after ih => exact congrArg (group before · after) ih
  | join t o u iht ihu => exact congrArg₂ (join · o ·) iht ihu

theorem fill_cons (v : String × Int) (t : Term) :
    t.fill (v :: values) = (t.fill [v]).fill values := by
  induction t with
  | leaf before l after => exact congrArg (leaf before · after) (l.fill_cons v)
  | group before t after ih => exact congrArg (group before · after) ih
  | join t o u iht ihu => exact congrArg₂ (join · o ·) iht ihu

theorem fill_perm (h : IsReport values) (hp : values'.Perm values) (t : Term) :
    t.fill values' = t.fill values := by
  have hf : Leaf.fill values' = Leaf.fill values := by
    funext l
    cases l with
    | literal zeros i => rfl
    | key j => simp only [Leaf.fill, h.lookup_perm hp]
  rw [fill, fill, hf]

theorem isWordChar_operator (o : Operator) : isWordChar o.char = false := by
  cases o <;> decide

theorem written (t : Term) (hb : ∀ c ∈ before, isWordChar c = false)
    (h : Onward k.text (Numeral.decimal n) s s' m) : Written k.text (Numeral.decimal n) before
      (t.text ++ s) ((t.fill [(k.name, (n : Int))]).text ++ s') (m + t.keys.count k) := by
  -- what follows the tree is written already, so that a join takes its right side for what follows
  -- the left one
  induction t generalizing before s s' m with
  | leaf g l g' =>
    simp only [text, fill, map, List.append_assoc]
    exact .blanks hb g.blanks fun _ hb ↦ l.written hb (h.blanks g'.blanks)
  | group g t g' ih =>
    have hc : isWordChar '(' = false := by decide
    have hclose := Onward.mark (c := ')') (by decide) ((h.blanks g'.blanks).written _)
    have hopen := Onward.mark hc (ih (by simpa using hc) hclose)
    simp only [text, fill, map, List.append_assoc, List.cons_append]
    exact .blanks hb g.blanks fun _ _ ↦ hopen.written _
  | join t o u iht ihu =>
    have ho := isWordChar_operator o
    have hu := Onward.mark ho (ihu (by simpa using ho) h)
    have ht := iht hb hu
    rw [keys, List.count_append, Nat.add_comm (t.keys.count k), ← Nat.add_assoc]
    simpa only [text, fill, map, List.append_assoc, List.cons_append] using ht

theorem written_none (t : Term) (k : Key) (n : Nat) : Written k.text (Numeral.decimal n) none t.text
    (t.fill [(k.name, (n : Int))]).text (t.keys.count k) := by
  have hb : ∀ c ∈ (none : Option Char), isWordChar c = false := by simp
  have h := t.written (k := k) (n := n) hb .nil
  rwa [List.append_nil, List.append_nil, Nat.zero_add] at h

theorem occurs_text_iff (t : Term) (k : Key) : occurs k.text t.text = true ↔ k ∈ t.keys := by
  have h := t.written_none k 0
  rw [← List.count_pos_iff]
  exact Key.occurs_iff h

theorem replace_text (t : Term) (k : Key) (n : Nat) :
    replace k.text (Numeral.signed n) t.text = (t.fill [(k.name, (n : Int))]).text := by
  have h := t.written_none k n
  have hn : Numeral.signed n = Numeral.decimal n := if_neg (Int.not_lt.mpr (Int.natCast_nonneg n))
  rw [hn]
  exact Key.replace_eq h

theorem foldl_replace_text (hv : ∀ v ∈ values, ∃ (k : Key) (n : Nat), v = (k.name, (n : Int)))
    (t : Term) : values.foldl (fun s v ↦ replace v.1.toList (Numeral.signed v.2) s) t.text =
      (t.fill values).text := by
  induction values generalizing t with
  | nil => rw [fill_nil, List.foldl_nil]
  | cons v values ih =>
    obtain ⟨⟨k, n, rfl⟩, hl⟩ := List.forall_mem_cons.mp hv
    rw [List.foldl_cons, Key.toList_name, replace_text, ih hl, ← fill_cons]

theorem substitute_text (h : IsReport values) (t : Term) :
    substitute values t.text = (t.fill values).text := by
  have hs := isReport_mergeSort h
  rw [substitute, foldl_replace_text hs.known, fill_perm h (List.mergeSort_perm values keyBefore)]

theorem isExpression_text {t : Term} (h : t.hasOperator = true) : isExpression t.text = true := by
  induction t with
  | leaf g l g' => cases h
  | group g t g' ih =>
    have ht := ih h
    simp only [isExpression, text, List.any_append, List.any_cons, Bool.or_eq_true] at ht ⊢
    exact .inr (.inr (.inl ht))
  | join t o u =>
    have ho : operators.contains o.char = true := by cases o <;> decide
    simp only [isExpression, text, List.any_append, List.any_cons, Bool.or_eq_true]
    exact .inr (.inl ho)

def Reads (t : Term) (values : List (String × Int)) : Prop :=
  ∃ k ∈ t.keys, k.name ∈ values.map Prod.fst

theorem any_occurs_text_iff (h : IsReport values) (t : Term) :
    (values.any fun v ↦ occurs v.1.toList t.text) = true ↔ t.Reads values := by
  rw [List.any_eq_true]
  constructor
  · rintro ⟨v, hv, ho⟩
    obtain ⟨k, n, rfl⟩ := h.known v hv
    rw [Key.toList_name, occurs_text_iff] at ho
    exact ⟨k, ho, List.mem_map_of_mem hv⟩
  · rintro ⟨k, hk, hm⟩
    obtain ⟨v, hv, hn⟩ := List.mem_map.mp hm
    exact ⟨v, hv, by rwa [hn, Key.toList_name, occurs_text_iff]⟩

/-- An event writes its numbers into the leaves that are its keys and changes nothing else, and it has
the text of a tree with an operator evaluated if and only if such a leaf is there. -/
theorem substitute_and_feed_text (t : Term) (e : Event) :
    substitute e.values t.text = (t.fill e.values).text ∧
      ∀ b : Binding, b.source = String.ofList t.text → t.hasOperator = true →
        (t.Reads e.values →
          b.feed? e.values = some (.expression (String.ofList (t.fill e.values).text))) ∧
        (¬ t.Reads e.values → b.feed? e.values = none) := by
  have h := e.isReport_values
  refine ⟨substitute_text h t, fun b hb ho ↦ ?_⟩
  have hs : b.source.toList = t.text := by rw [hb, String.toList_ofList]
  have hx : isExpression b.source.toList = true := by rw [hs, isExpression_text ho]
  rw [Binding.feed?_of_isExpression h hx, hs, substitute_text h]
  exact ⟨fun hr ↦ if_pos ((any_occurs_text_iff h t).mpr hr),
    fun hr ↦ if_neg fun ha ↦ hr ((any_occurs_text_iff h t).mp ha)⟩

def weighted : Term :=
  let none : Gap := ⟨[], blanks_nil⟩
  let space : Gap := ⟨[' '], blanks_iff_all.mpr rfl⟩
  join (join (leaf none (.key (.zone 5)) space) .mul (leaf space (.literal 1 10) none)) .add
    (group none (leaf space (.key (.zone 50)) space) none)

theorem substitute_and_feed_weighted : weighted.Reads Event.breakIn.values ∧
    (⟨"item", "panel", "Zone 5 * 010+( Zone 50 )", none, 0, none⟩ : Binding).feed?
      Event.breakIn.values = some (.expression "128 * 010+( Zone 50 )") := by
  have hr : weighted.Reads Event.breakIn.values := ⟨.zone 5, by decide, by decide⟩
  exact ⟨hr, ((substitute_and_feed_text weighted Event.breakIn).2 _ rfl rfl).1 hr⟩

end Term

end AlarmPanel.Source
