import Mathlib.Data.List.Basic
import AlarmPanel.Reply
import AlarmPanel.Proofs.Text.Run

namespace AlarmPanel.Reply

open Text

def isNoise (c : Char) : Bool :=
  c == ':' || isLineEnd c

/-- A payload that no noise is part of, neither around it nor as a pair inside it. -/
structure IsPure (p : List Char) : Prop where
  ne_nil : p ≠ []
  unpaired : ¬ ['\r', ':'] <:+: p
  head : ∀ c ∈ p.head?, isLineEnd c = false
  last : ∀ c ∈ p.getLast?, isNoise c = false

def meaning (p : List Char) : Reply :=
  if p = "&FAIL".toList then failure .fail
  else if p = "ERR".toList then failure .err
  else ok (String.ofList p)

/-- Characters of one kind, with pairs of a return and a colon anywhere among them. -/
inductive Woven (q : Char → Bool) : List Char → Prop
  | nil : Woven q []
  | pair {s : List Char} (h : Woven q s) : Woven q ('\r' :: ':' :: s)
  | one {c : Char} {s : List Char} (hc : q c = true) (h : Woven q s) : Woven q (c :: s)

/-- Line ends, then colons, then line ends, pairs aside. -/
def InOrder (w : List Char) : Prop :=
  ∃ a b c, w = a ++ (b ++ c) ∧ Woven isLineEnd a ∧ Woven (· == ':') b ∧ Woven isLineEnd c

variable {q : Char → Bool} {p w v a b c s raw : List Char} {x : Char}

theorem isPure_of_ends {y : Char} (hn : p ≠ []) (hu : ¬ ['\r', ':'] <:+: p) (hh : p.head? = some x)
    (hx : isLineEnd x = false) (hl : p.getLast? = some y) (hy : isNoise y = false) : IsPure p := by
  refine ⟨hn, hu, fun c hc ↦ ?_, fun c hc ↦ ?_⟩
  · obtain rfl := Option.mem_unique hh hc
    exact hx
  · obtain rfl := Option.mem_unique hl hc
    exact hy

theorem dropNoise_cons (h : x = '\r' → s.head? ≠ some ':') :
    dropNoise (x :: s) = x :: dropNoise s := by
  refine dropNoise.eq_3 x s ?_
  rintro t hx rfl
  exact h hx rfl

theorem dropNoise_append (h : ∀ x ∈ a.getLast?, x ≠ '\r') (w : List Char) :
    dropNoise (a ++ w) = dropNoise a ++ dropNoise w := by
  fun_induction dropNoise a with
  | case1 => rfl
  | case2 s ih =>
    exact ih fun x hx ↦ h x (List.mem_getLast?_cons (List.mem_getLast?_cons hx))
  | case3 x s hn ih =>
    have hx : x = '\r' → (s ++ w).head? ≠ some ':' := by
      rintro rfl
      cases s with
      | nil => exact absurd rfl (h '\r' rfl)
      | cons y s =>
        intro hy
        exact hn s rfl (by rw [Option.some.inj hy])
    rw [List.cons_append, dropNoise_cons hx, ih fun x hx ↦ h x (List.mem_getLast?_cons hx)]
    rfl

theorem dropNoise_of_unpaired (h : ¬ ['\r', ':'] <:+: p) : dropNoise p = p := by
  fun_induction dropNoise p with
  | case1 => rfl
  | case2 s => exact absurd ⟨[], s, rfl⟩ h
  | case3 x s hn ih =>
    rw [ih fun hs ↦ h (List.infix_cons hs)]

theorem exists_append_of_dropNoise (h : dropNoise w = a ++ b) :
    ∃ u v, w = u ++ v ∧ dropNoise u = a ∧ dropNoise v = b := by
  fun_induction dropNoise w generalizing a with
  | case1 =>
    obtain ⟨rfl, rfl⟩ := List.append_eq_nil_iff.mp h.symm
    exact ⟨[], [], rfl, rfl, rfl⟩
  | case2 s ih =>
    obtain ⟨u, v, rfl, hu, hv⟩ := ih h
    exact ⟨'\r' :: ':' :: u, v, rfl, hu, hv⟩
  | case3 x s hn ih =>
    cases a with
    | nil => exact ⟨[], x :: s, rfl, rfl, (dropNoise.eq_3 x s hn).trans h⟩
    | cons y a =>
      obtain ⟨rfl, hs⟩ := List.cons.inj h
      obtain ⟨u, v, rfl, hu, hv⟩ := ih hs
      refine ⟨x :: u, v, rfl, ?_, hv⟩
      rw [← hu]
      refine dropNoise.eq_3 x u ?_
      rintro t hx rfl
      exact hn (t ++ v) hx rfl

theorem woven_of_dropNoise (h : ∀ x ∈ dropNoise w, q x = true) : Woven q w := by
  fun_induction dropNoise w with
  | case1 => exact .nil
  | case2 s ih => exact .pair (ih h)
  | case3 x s hn ih =>
    exact .one (h x List.mem_cons_self) (ih fun y hy ↦ h y (List.mem_cons_of_mem _ hy))

def InRuns (v : List Char) : Prop :=
  ∃ a b c, v = a ++ (b ++ c) ∧ (∀ x ∈ a, isLineEnd x = true) ∧ (∀ x ∈ b, (x == ':') = true) ∧
    ∀ x ∈ c, isLineEnd x = true

theorem inOrder_of_inRuns (h : InRuns (dropNoise w)) : InOrder w := by
  obtain ⟨a, b, c, hw, ha, hb, hc⟩ := h
  obtain ⟨u, v, rfl, rfl, hv⟩ := exists_append_of_dropNoise hw
  obtain ⟨v, t, rfl, rfl, rfl⟩ := exists_append_of_dropNoise hv
  exact ⟨u, v, t, rfl, woven_of_dropNoise ha, woven_of_dropNoise hb, woven_of_dropNoise hc⟩

theorem Woven.head (h : Woven q w) (hw : w.head? = some ':') : q ':' = true := by
  cases h with
  | nil | pair => cases hw
  | one hc => rwa [← Option.some.inj hw]

theorem Woven.all_dropNoise (hq : q '\r' = true → q ':' = false) (h : Woven q w) :
    ∀ x ∈ dropNoise w, q x = true := by
  induction h with
  | nil => simp [dropNoise]
  | pair h ih => exact ih
  | one hc h ih =>
    rw [dropNoise_cons]
    · exact List.forall_mem_cons.mpr ⟨hc, ih⟩
    · rintro rfl hs
      cases (hq hc).symm.trans (h.head hs)

theorem Woven.last_ne (h : Woven (· == ':') b) : ∀ x ∈ b.getLast?, x ≠ '\r' := by
  have hcolon {s : List Char} (hs : ∀ x ∈ s.getLast?, x ≠ '\r') :
      ∀ x ∈ (':' :: s).getLast?, x ≠ '\r' := by
    intro x hx
    rw [List.getLast?_cons] at hx
    cases hl : s.getLast? with
    | none =>
      rw [hl] at hx
      obtain rfl := Option.some.inj hx
      decide
    | some y =>
      rw [hl] at hx
      obtain rfl := Option.some.inj hx
      exact hs y hl
  induction h with
  | nil => simp
  | pair h ih =>
    rw [List.getLast?_cons_cons]
    exact hcolon ih
  | one hc h ih =>
    obtain rfl := beq_iff_eq.mp hc
    exact hcolon ih

/-- A return at the end of the first run makes a pair with the first colon. -/
theorem inRuns_of_woven (ha : Woven isLineEnd a) (hb : Woven (· == ':') b)
    (hc : Woven isLineEnd c) : InRuns (dropNoise (a ++ (b ++ c))) := by
  have hall : ∀ x ∈ dropNoise c, isLineEnd x = true := hc.all_dropNoise fun _ ↦ rfl
  have base {b : List Char} (hb : Woven (· == ':') b) : InRuns (dropNoise (b ++ c)) := by
    have hall' : ∀ x ∈ dropNoise b, (x == ':') = true := hb.all_dropNoise fun h ↦ by cases h
    exact ⟨[], _, _, dropNoise_append hb.last_ne c, by simp, hall', hall⟩
  induction ha with
  | nil => exact base hb
  | pair ha ih => exact ih
  | @one x s hx ha ih =>
    by_cases hp : x = '\r' ∧ (s ++ (b ++ c)).head? = some ':'
    · obtain ⟨rfl, hh⟩ := hp
      cases s with
      | cons y s => cases ha.head hh
      | nil =>
        cases hb with
        | nil => cases hc.head hh
        | pair hb => cases hh
        | @one y b hy hb =>
          obtain rfl : y = ':' := beq_iff_eq.mp hy
          exact base hb
    · obtain ⟨a', b', c', he, ha', hb', hc'⟩ := ih
      refine ⟨x :: a', b', c', ?_, List.forall_mem_cons.mpr ⟨hx, ha'⟩, hb', hc'⟩
      rw [List.cons_append, dropNoise_cons fun h hs ↦ hp ⟨h, hs⟩, he]
      rfl

theorem inOrder_iff : InOrder w ↔ InRuns (dropNoise w) := by
  refine ⟨?_, inOrder_of_inRuns⟩
  rintro ⟨a, b, c, rfl, ha, hb, hc⟩
  exact inRuns_of_woven ha hb hc

/-- What is left of a text when its last three runs of noise are cut off. -/
def stripEnd (v : List Char) : List Char :=
  dropEndWhile isLineEnd (dropEndWhile (· == ':') (dropEndWhile isLineEnd v))

theorem clean_eq (raw : List Char) :
    clean raw = stripEnd ((dropNoise raw).dropWhile isLineEnd) := rfl

theorem exists_stripEnd (v : List Char) : ∃ a b c, v = stripEnd v ++ (a ++ (b ++ c)) ∧
    (∀ x ∈ a, isLineEnd x = true) ∧ (∀ x ∈ b, (x == ':') = true) ∧ ∀ x ∈ c, isLineEnd x = true := by
  obtain ⟨c, hc, hv⟩ := exists_dropEndWhile isLineEnd v
  obtain ⟨b, hb, hv'⟩ := exists_dropEndWhile (· == ':') (dropEndWhile isLineEnd v)
  obtain ⟨a, ha, hv''⟩ :=
    exists_dropEndWhile isLineEnd (dropEndWhile (· == ':') (dropEndWhile isLineEnd v))
  refine ⟨a, b, c, ?_, ha, hb, hc⟩
  rw [stripEnd, ← List.append_assoc, ← hv'', ← List.append_assoc, ← hv', ← hv]

theorem stripEnd_append (h : ∀ x ∈ p.getLast?, isNoise x = false) (v : List Char) :
    stripEnd (p ++ v) = p ++ stripEnd v := by
  have hc : ∀ x ∈ p.getLast?, (x == ':') = false := fun x hx ↦ (Bool.or_eq_false_iff.mp (h x hx)).1
  have hl : ∀ x ∈ p.getLast?, isLineEnd x = false := fun x hx ↦ (Bool.or_eq_false_iff.mp (h x hx)).2
  rw [stripEnd, dropEndWhile_append_of_last hl, dropEndWhile_append_of_last hc,
    dropEndWhile_append_of_last hl, stripEnd]

theorem dropEndWhile_of_all (h : ∀ x ∈ a, q x = true) : dropEndWhile q a = [] :=
  dropEndWhile_append q h []

theorem stripEnd_eq_nil_iff : stripEnd v = [] ↔ InRuns v := by
  constructor
  · intro h
    obtain ⟨a, b, c, hv, hr⟩ := exists_stripEnd v
    rw [h] at hv
    exact ⟨a, b, c, hv, hr⟩
  · rintro ⟨a, b, c, rfl, ha, hb, hc⟩
    rw [stripEnd, ← List.append_assoc, dropEndWhile_append _ hc]
    by_cases hn : b = []
    · rw [hn, List.append_nil, dropEndWhile_of_all ha]
      rfl
    · have hlast : ∀ x ∈ (a ++ b).getLast?, isLineEnd x = false := by
        refine last_run hn (fun x hx ↦ ?_) a
        rw [beq_iff_eq.mp (hb x hx)]
        rfl
      have hlast' : ∀ x ∈ a.getLast?, (x == ':') = false := by
        intro x hx
        cases hx' : x == ':' with
        | false => rfl
        | true =>
          have hx := ha x (List.mem_of_getLast? hx)
          rw [beq_iff_eq.mp hx'] at hx
          cases hx
      rw [dropEndWhile_of_last hlast, dropEndWhile_append _ hb, dropEndWhile_of_last hlast',
        dropEndWhile_of_all ha]

theorem inRuns_dropWhile_iff : InRuns (v.dropWhile isLineEnd) ↔ InRuns v := by
  constructor
  · rintro ⟨a, b, c, hv, ha, hb, hc⟩
    refine ⟨v.takeWhile isLineEnd ++ a, b, c, ?_, ?_, hb, hc⟩
    · rw [List.append_assoc, ← hv, List.takeWhile_append_dropWhile]
    · exact List.forall_mem_append.mpr ⟨List.all_eq_true.mp List.all_takeWhile, ha⟩
  · rintro ⟨a, b, c, rfl, ha, hb, hc⟩
    rw [List.dropWhile_append_of_pos ha]
    cases b with
    | nil =>
      have hn : (c ++ []).dropWhile isLineEnd = [] := (takeWhile_run hc (by simp)).2
      rw [List.append_nil] at hn
      exact ⟨[], [], [], hn, by simp, by simp, by simp⟩
    | cons x b =>
      have hx : isLineEnd x = false := by
        rw [beq_iff_eq.mp (hb x List.mem_cons_self)]
        rfl
      have hself := (takeWhile_run (a := []) (b := x :: b ++ c) (by simp) (by simpa using hx)).2
      exact ⟨[], x :: b, c, hself, by simp, hb, hc⟩

theorem clean_eq_nil_iff : clean w = [] ↔ InOrder w := by
  rw [clean_eq, stripEnd_eq_nil_iff, inRuns_dropWhile_iff, inOrder_iff]

/-- A payload stays as it is, and the noise after it goes as far as its last three runs. -/
theorem clean_append (hp : IsPure p) (w : List Char) :
    clean (p ++ w) = p ++ stripEnd (dropNoise w) := by
  have hl : ∀ x ∈ p.getLast?, x ≠ '\r' := by
    rintro x hx rfl
    cases hp.last _ hx
  have hh : ∀ x ∈ (p ++ dropNoise w).head?, isLineEnd x = false := by
    intro x hx
    rw [List.head?_append_of_ne_nil _ hp.ne_nil] at hx
    exact hp.head x hx
  have hd : (p ++ dropNoise w).dropWhile isLineEnd = p ++ dropNoise w :=
    (takeWhile_run (a := []) (by simp) hh).2
  rw [clean_eq, dropNoise_append hl, dropNoise_of_unpaired hp.unpaired, hd, stripEnd_append hp.last]

theorem ofText?_eq (s : List Char) : ReplyToken.ofText? s =
    if s = "&FAIL".toList then some .fail else if s = "ERR".toList then some .err else none := by
  by_cases hf : s = "&FAIL".toList
  · rw [hf]
    rfl
  by_cases he : s = "ERR".toList
  · rw [he]
    rfl
  rw [if_neg hf, if_neg he, ReplyToken.ofText?, List.find?_eq_none]
  intro t _ ht
  cases t with
  | fail => exact hf (beq_iff_eq.mp ht).symm
  | err => exact he (beq_iff_eq.mp ht).symm

theorem classify_eq (raw : List Char) :
    classify raw = if clean raw = [] then empty else meaning (clean raw) := by
  rw [classify]
  cases clean raw with
  | nil => rfl
  | cons x s =>
    rw [if_neg (List.cons_ne_nil x s)]
    dsimp only
    rw [ofText?_eq, meaning]
    split_ifs <;> rfl

theorem classify_cases (raw : List Char) :
    clean raw = [] ∧ classify raw = empty ∨
      (∃ token : ReplyToken, clean raw = token.text.toList ∧ classify raw = failure token) ∨
      (clean raw ≠ [] ∧ ∀ token : ReplyToken, clean raw ≠ token.text.toList) ∧
        classify raw = ok (String.ofList (clean raw)) := by
  rw [classify_eq]
  by_cases hn : clean raw = []
  · exact .inl ⟨hn, if_pos hn⟩
  rw [if_neg hn, meaning]
  split_ifs with hf he
  · exact .inr (.inl ⟨.fail, hf, rfl⟩)
  · exact .inr (.inl ⟨.err, he, rfl⟩)
  · refine .inr (.inr ⟨⟨hn, fun token ↦ ?_⟩, rfl⟩)
    cases token with
    | fail => exact hf
    | err => exact he

def text : Reply → List Char
  | ok p => p.toList
  | failure t => t.text.toList
  | timeout | empty => []

theorem text_meaning (p : List Char) : (meaning p).text = p := by
  unfold meaning
  split_ifs with hf he
  · exact hf.symm
  · exact he.symm
  · exact String.toList_ofList

theorem meaning_ne_empty (p : List Char) : meaning p ≠ empty := by
  unfold meaning
  split_ifs <;> simp

theorem meaning_inj (h : meaning a = meaning b) : a = b := by
  have ht := congrArg text h
  rwa [text_meaning, text_meaning] at ht

theorem meaning_of_last (h : a.getLast? = some ':') : meaning a = ok (String.ofList a) := by
  have hf : a ≠ "&FAIL".toList := by
    rintro rfl
    cases h
  have he : a ≠ "ERR".toList := by
    rintro rfl
    cases h
  rw [meaning, if_neg hf, if_neg he]

theorem noise_dropNoise (h : ∀ x ∈ w, isNoise x = true) : ∀ x ∈ dropNoise w, isNoise x = true := by
  fun_induction dropNoise w with
  | case1 => exact h
  | case2 s ih => exact ih fun x hx ↦ h x (List.mem_cons_of_mem _ (List.mem_cons_of_mem _ hx))
  | case3 x s hn ih =>
    exact List.forall_mem_cons.mpr ⟨h x List.mem_cons_self, ih fun y hy ↦ h y (List.mem_cons_of_mem _ hy)⟩

theorem mem_of_mem_stripEnd (h : x ∈ stripEnd v) : x ∈ v := by
  obtain ⟨a, b, c, hv, -⟩ := exists_stripEnd v
  rw [hv]
  exact List.mem_append_left _ h

theorem last_stripEnd (hv : ∀ x ∈ v, isNoise x = true) (hn : stripEnd v ≠ []) :
    (stripEnd v).getLast? = some ':' := by
  have hlast := List.getLast?_eq_some_getLast hn
  have hl : isLineEnd ((stripEnd v).getLast hn) = false := last_dropEndWhile isLineEnd _ _ hlast
  have hc := hv _ (mem_of_mem_stripEnd (List.getLast_mem hn))
  rw [isNoise, hl, Bool.or_false] at hc
  rw [hlast, beq_iff_eq.mp hc]

theorem noise_clean (h : ∀ x ∈ w, isNoise x = true) (hn : clean w ≠ []) :
    (∀ x ∈ clean w, isNoise x = true) ∧ (clean w).getLast? = some ':' := by
  have hv : ∀ x ∈ (dropNoise w).dropWhile isLineEnd, isNoise x = true :=
    fun x hx ↦ noise_dropNoise h x ((List.dropWhile_sublist _).mem hx)
  rw [clean_eq] at hn ⊢
  exact ⟨fun x hx ↦ hv x (mem_of_mem_stripEnd hx), last_stripEnd hv hn⟩

/-- Noise after a payload changes nothing about what the payload means, and noise alone means nothing,
exactly if it is in order. Else some of it, up to a colon, is taken for payload. -/
theorem classify_noise_iff (hp : IsPure p) (hw : ∀ x ∈ w, isNoise x = true) :
    (classify (p ++ w) = meaning p ↔ InOrder w) ∧ (classify w = empty ↔ InOrder w) ∧
      (¬ InOrder w → ∃ t t', (∀ x ∈ t ++ t', isNoise x = true) ∧ t.getLast? = some ':' ∧
        t'.getLast? = some ':' ∧ classify (p ++ w) = ok (String.ofList (p ++ t)) ∧
        classify w = ok (String.ofList t')) := by
  have hv := noise_dropNoise hw
  have hne : p ++ stripEnd (dropNoise w) ≠ [] := by simp [hp.ne_nil]
  have hboth : classify (p ++ w) = meaning (p ++ stripEnd (dropNoise w)) := by
    rw [classify_eq, clean_append hp, if_neg hne]
  have hstrip : stripEnd (dropNoise w) = [] ↔ InOrder w := by rw [stripEnd_eq_nil_iff, inOrder_iff]
  refine ⟨?_, ?_, ?_⟩
  · rw [hboth, ← hstrip]
    constructor
    · intro h
      exact List.append_right_eq_self.mp (meaning_inj h)
    · intro h
      rw [h, List.append_nil]
  · rw [classify_eq, ← clean_eq_nil_iff]
    constructor
    · intro h
      by_contra hn
      rw [if_neg hn] at h
      exact meaning_ne_empty _ h
    · exact fun h ↦ if_pos h
  · intro hn
    have ht : stripEnd (dropNoise w) ≠ [] := fun h ↦ hn (hstrip.mp h)
    have hlast := last_stripEnd hv ht
    have hn' : clean w ≠ [] := fun h ↦ hn (clean_eq_nil_iff.mp h)
    obtain ⟨hnoise, hlast'⟩ := noise_clean hw hn'
    refine ⟨_, _, ?_, hlast, hlast', ?_, ?_⟩
    · exact List.forall_mem_append.mpr ⟨fun x hx ↦ hv x (mem_of_mem_stripEnd hx), hnoise⟩
    · rw [hboth, meaning_of_last]
      rw [getLast?_append_of_ne_nil ht, hlast]
    · rw [classify_eq, if_neg hn', meaning_of_last hlast']

theorem classify_orderedNoise :
    IsPure "&FAIL".toList ∧ (∀ x ∈ "\n:\r::\r\n".toList, isNoise x = true) ∧
      classify "&FAIL\n:\r::\r\n".toList = failure .fail ∧
      classify "\n:\r::\r\n".toList = empty := by
  have hp : IsPure "&FAIL".toList := isPure_of_ends (by decide) (by decide) rfl rfl rfl rfl
  have hw : ∀ x ∈ "\n:\r::\r\n".toList, isNoise x = true := List.all_eq_true.mp (by decide)
  have ho : InOrder "\n:\r::\r\n".toList := by
    refine ⟨['\n'], [':', '\r', ':', ':'], ['\r', '\n'], rfl, ?_, ?_, ?_⟩
    · exact .one rfl .nil
    · exact .one rfl (.pair (.one rfl .nil))
    · exact .one rfl (.one rfl .nil)
  have h := classify_noise_iff hp hw
  exact ⟨hp, hw, h.1.mpr ho, h.2.1.mpr ho⟩

/-- A line feed between two colons keeps the first of them in the payload. -/
theorem not_classify_splitColons :
    IsPure "PWR=1".toList ∧ (∀ x ∈ ":\n:".toList, isNoise x = true) ∧
      classify "PWR=1:\n:".toList = ok "PWR=1:" ∧ classify "PWR=1:\n:".toList ≠ meaning "PWR=1".toList ∧
      classify ":\n:".toList = ok ":" ∧ classify ":\n:".toList ≠ empty := by
  have hp : IsPure "PWR=1".toList := isPure_of_ends (by decide) (by decide) rfl rfl rfl rfl
  have hw : ∀ x ∈ ":\n:".toList, isNoise x = true := List.all_eq_true.mp (by decide)
  exact ⟨hp, hw, by decide, by decide, by decide, by decide⟩

end AlarmPanel.Reply
