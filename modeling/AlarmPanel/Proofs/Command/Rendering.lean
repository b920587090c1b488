import AlarmPanel.Proofs.Command.Template

namespace AlarmPanel.Command

open Numeral

def number? : Command → Option UInt32
  | indexed _ n | arm n _ _ | disarm n _ => some n
  | powerQuery | errorQuery | setPower _ | resetAll | raw _ => none

/-- The command names nothing, or something within the three digits of an index. -/
def InRange (c : Command) : Prop :=
  ∀ n ∈ c.number?, n ≤ 999

instance : DecidablePred InRange := fun c ↦
  Option.decidableForallMem c.number?

variable {s : List Char} {c c' : Command} {n : UInt32}

theorem le_999_iff : n ≤ 999 ↔ n.toNat < 1000 :=
  UInt32.le_iff_toNat_le.trans Nat.lt_succ_iff.symm

theorem toList_text (c : Command) : c.text.toList = c.render :=
  String.toList_ofList

theorem follows_render (hc : c.isRaw = false) (h : c.InRange) : Follows c.render c := by
  have hi (n : UInt32) (hn : n ∈ c.number?) : IsIndex (index n) n :=
    isIndex_index (le_999_iff.mp (h n hn))
  cases c with
  | powerQuery | errorQuery | resetAll => rfl
  | setPower state => exact ⟨_, rfl, spells_signed _⟩
  | arm area mode code => exact ⟨_, List.append_assoc _ _ _, hi area rfl⟩
  | disarm area code => exact ⟨_, List.append_assoc _ _ _, hi area rfl⟩
  | indexed operation n => exact ⟨_, rfl, hi n rfl⟩
  | raw text => cases hc

theorem Follows.inRange (h : Follows s c) : c.InRange := by
  intro n hn
  rw [le_999_iff]
  cases c with
  | arm | disarm | indexed =>
    obtain ⟨ds, -, hi⟩ := h
    cases hn
    exact hi.lt
  | _ => cases hn

theorem ofText_text_iff (hc : c.isRaw = false) : ofText c.text = c ↔ c.InRange := by
  rw [ofText_eq_iff hc, toList_text]
  exact ⟨Follows.inRange, follows_render hc⟩

theorem ofText_text_raw_iff (text : String) :
    ofText (raw text).text = raw text ↔ ¬ ∃ c, Follows text.toList c := by
  have ht : (raw text).text = text := String.ofList_toList
  rw [ht, ofText_eq_raw_iff]

def firstDigits (n : UInt32) : UInt32 :=
  .ofNat (Nat.ofDigitChars 10 ((index n).take 3) 0)

/-- What the text of a command with an index beyond 999 is read as. Where a code follows the index,
the digits that are left over start the code. -/
def misread : Command → Command
  | disarm area code =>
    disarm (firstDigits area) (String.ofList ((index area).drop 3 ++ code.toList))
  | c => raw c.text

theorem three_lt_length_index (h : ¬ n ≤ 999) : 3 < (index n).length := by
  rw [le_999_iff] at h
  have hd : ¬ (decimal n.toNat).length ≤ 3 := by
    rwa [decimal, Nat.length_toDigits_le_iff (by decide) (by decide)]
  rw [index, padded, List.length_append]
  omega

theorem isIndex_firstDigits (h : ¬ n ≤ 999) : IsIndex ((index n).take 3) (firstDigits n) := by
  have hl : ((index n).take 3).length = 3 := by
    rw [List.length_take]
    exact Nat.min_eq_left (Nat.le_of_lt (three_lt_length_index h))
  have hd : ∀ c ∈ (index n).take 3, c.isDigit = true :=
    fun c hc ↦ digits_padded 3 _ c (List.mem_of_mem_take hc)
  have hlt := ofDigitChars_lt hd 0
  rw [hl] at hlt
  refine ⟨⟨?_, hd, ?_⟩, hl⟩
  · intro hn
    rw [hn] at hl
    cases hl
  · exact (UInt32.toNat_ofNat_of_lt' (Nat.lt_trans hlt (by decide))).symm

theorem not_follows_arm {area area' : UInt32} {mode mode' : ArmMode} {code code' : String}
    (h : ¬ area ≤ 999) : ¬ Follows (arm area mode code).render (arm area' mode' code') := by
  rintro ⟨ds, hs, hi⟩
  have hr : (arm area mode code).render = ['A', 'A'] ++ (index area ++ mode.letter :: code.toList) :=
    List.append_assoc _ _ _
  rw [hr] at hs
  have hl := three_lt_length_index h
  rcases List.append_eq_append_iff.mp (List.append_cancel_left hs) with ⟨t, ht, -⟩ | ⟨t, ht, hm⟩
  · have := congrArg List.length ht
    rw [hi.length_eq, List.length_append] at this
    omega
  · cases t with
    | nil =>
      rw [ht, List.append_nil, hi.length_eq] at hl
      exact Nat.lt_irrefl 3 hl
    | cons x t =>
      have hx : x.isDigit = true := digits_padded 3 _ x (by rw [← index, ht]; simp)
      obtain rfl : mode'.letter = x := (List.cons.inj hm).1
      revert hx
      cases mode' <;> decide

theorem not_follows_indexed {operation operation' : Operation} {n' : UInt32} (h : ¬ n ≤ 999) :
    ¬ Follows (indexed operation n).render (indexed operation' n') := by
  rintro ⟨ds, hs, hi⟩
  obtain ⟨-, rfl⟩ := List.append_inj hs
    ((length_letters operation).trans (length_letters operation').symm)
  have := three_lt_length_index h
  rw [hi.length_eq] at this
  exact Nat.lt_irrefl 3 this

def initials : Command → List Char
  | powerQuery => ['P', 'W']
  | errorQuery => ['E', 'R']
  | resetAll => ['I', 'N']
  | setPower _ => ['P', 'O']
  | arm .. => ['A', 'A']
  | disarm .. => ['A', 'D']
  | indexed operation _ => operation.letters
  | raw _ => []

theorem Follows.initials_eq (h : Follows s c) : c.initials = s.take 2 := by
  cases c with
  | powerQuery | errorQuery | resetAll => exact h ▸ rfl
  | setPower | arm | disarm =>
    obtain ⟨r, rfl, -⟩ := h
    rfl
  | indexed operation n =>
    obtain ⟨ds, rfl, -⟩ := h
    exact (List.take_left' (length_letters operation)).symm
  | raw => exact h.elim

theorem not_follows_render_arm {area : UInt32} {mode : ArmMode} {code : String}
    (h : ¬ area ≤ 999) : ¬ Follows (arm area mode code).render c := by
  intro hc
  have hi : c.initials = ['A', 'A'] := hc.initials_eq
  cases c with
  | arm area' mode' code' => exact not_follows_arm h hc
  | indexed operation n => cases operation <;> cases hi
  | _ => cases hi

theorem not_follows_render_indexed {operation : Operation} (h : ¬ n ≤ 999) :
    ¬ Follows (indexed operation n).render c := by
  intro hc
  have hi : c.initials = operation.letters :=
    hc.initials_eq.trans (List.take_left' (length_letters operation))
  cases c with
  | indexed operation' n' => exact not_follows_indexed h hc
  | raw => exact hc.elim
  | _ => cases operation <;> cases hi

theorem ofText_text_of_not_inRange (h : ¬ c.InRange) : ofText c.text = c.misread := by
  have hraw (hn : ∀ c', ¬ Follows c.render c') : ofText c.text = raw c.text := by
    rw [ofText_eq_raw_iff, toList_text]
    rintro ⟨c', hc'⟩
    exact hn c' hc'
  have hn : ∀ n ∈ c.number?, ¬ n ≤ 999 := by
    intro n hn hle
    refine h fun m hm ↦ ?_
    obtain rfl := Option.mem_unique hm hn
    exact hle
  cases c with
  | arm area mode code => exact hraw fun c' ↦ not_follows_render_arm (hn area rfl)
  | indexed operation n => exact hraw fun c' ↦ not_follows_render_indexed (hn n rfl)
  | disarm area code =>
    have hi := isIndex_firstDigits (hn area rfl)
    refine (ofText_eq_iff rfl).mpr ⟨_, ?_, hi⟩
    rw [toList_text, String.toList_ofList, ← List.append_assoc _ _ code.toList, List.take_append_drop]
    exact List.append_assoc _ _ _
  | _ => exact absurd (fun n hn ↦ by cases hn) h

/-- The text of a command brings the command back exactly if it needs no index beyond 999, and a raw
command exactly if its text follows no template. Commands that come back have texts of their own. -/
theorem ofText_text_exact :
    (∀ c : Command, c.isRaw = false → (ofText c.text = c ↔ c.InRange)) ∧
      (∀ text, ofText (raw text).text = raw text ↔ ¬ ∃ c, Follows text.toList c) ∧
      ∀ c c' : Command, c.isRaw = false → c'.isRaw = false → c.InRange → c'.InRange →
        c.text = c'.text → c = c' := by
  refine ⟨fun c hc ↦ ofText_text_iff hc, ofText_text_raw_iff, ?_⟩
  intro c c' hc hc' hr hr' ht
  have h := (ofText_text_iff hc).mpr hr
  have h' := (ofText_text_iff hc').mpr hr'
  rw [← h, ← h', ht]

theorem ofText_text_exact_arm :
    ofText (arm 999 .stay "Fé 7").text = arm 999 .stay "Fé 7" ∧
      ofText (raw "POWER +7").text ≠ raw "POWER +7" ∧
      (disarm 12 "3").text ≠ (disarm 123 "").text := by
  refine ⟨(ofText_text_exact.1 _ rfl).mpr (by decide), ?_, ?_⟩
  · intro h
    refine (ofText_text_exact.2.1 _).mp h ⟨setPower 7, ['+', '7'], rfl, ?_⟩
    exact .plus (by simp) rfl
  · intro h
    cases ofText_text_exact.2.2 _ _ rfl rfl (by decide) (by decide) h

end AlarmPanel.Command
